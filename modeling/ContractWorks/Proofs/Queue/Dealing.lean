import ContractWorks.Proofs.Queue.Attempt
import ContractWorks.Proofs.Queue.Once
import ContractWorks.Queue.Schedule

namespace ContractWorks.World

/-- This test holds of the call that begins a task, and of the steps of the task. -/
def makes (world : World) (number : Nat) : Move → Bool
  | .call _ => world.nextTask = number
  | .step other _ => other = number
  | _ => false

/-- This function gives the worlds before and after each move that a task makes in a run, whatever else goes on between
them. -/
def dealings (setting : Setting) (number : Nat) : World → List Move → List (World × World)
  | _, [] => []
  | world, move :: moves =>
    match move? setting world move with
    | none => dealings setting number world moves
    | some next =>
      if world.makes number move then (world, next) :: dealings setting number next moves
      else dealings setting number next moves

/-- A move leaves the jobs alone when it changes no record, no live entry and no id on the channel. -/
structure Untouched (before after : World) : Prop where
  jobs : after.jobs = before.jobs
  live : after.live = before.live
  ids : after.channel.ids = before.channel.ids

/-- A move records a job when it stores its record under an id that no record has, and changes nothing else of the
jobs. -/
structure Records (record : JobRecord) (before after : World) : Prop where
  free : Table.get? record.id before.jobs.records = none
  jobs : after.jobs = before.jobs.withRecords (Table.insert record.id record before.jobs.records)
  live : after.live = before.live
  ids : after.channel.ids = before.channel.ids

/-- A move enters a job when it makes its live entry, and changes nothing else of the jobs. -/
structure Enters (id : JobId) (before after : World) : Prop where
  jobs : after.jobs = before.jobs
  live : after.live = before.live.queued id
  ids : after.channel.ids = before.channel.ids

/-- A move dispatches a job when it turns a reserved place into an id on the channel, and changes nothing else of the
jobs. -/
structure Dispatches (id : JobId) (before after : World) : Prop where
  jobs : after.jobs = before.jobs
  live : after.live = before.live
  channel : after.channel = before.channel.release.push id

variable {setting : Setting} {start world next : World} {number : Nat} {chance : Chance} {step : SubmitStep}
  {deals : List (World × World)}

/-- The call that the task with a number answers wants a job. -/
def Wants (world : World) (number : Nat) (kind : JobKind) (input : JobInput) : Prop :=
  ∃ call, .called number call ∈ world.history ∧ call.asked? = some (.ok (kind, input))

/-- These are the dealings of a submission up to each of its steps. -/
inductive Dealt (asked : JobKind → JobInput → Prop) : List (World × World) → SubmitStep → Prop where
  | waiting {called : World × World} {kind : JobKind} {input : JobInput} (wanted : asked kind input)
      (calls : Untouched called.1 called.2) : Dealt asked [called] (.waiting kind input)
  | reserved {called reserved : World × World} {id : JobId} {now : Time.Instant} {kind : JobKind} {input : JobInput}
      (wanted : asked kind input) (calls : Untouched called.1 called.2) (reserves : Untouched reserved.1 reserved.2) :
      Dealt asked [called, reserved] (.reserved (.new id now kind input))
  | inserted {called reserved stored : World × World} {id : JobId} {now : Time.Instant} {kind : JobKind}
      {input : JobInput} (wanted : asked kind input) (calls : Untouched called.1 called.2)
      (reserves : Untouched reserved.1 reserved.2) (stores : Records (.new id now kind input) stored.1 stored.2) :
      Dealt asked [called, reserved, stored] (.inserted id)
  | announced {called reserved stored entered : World × World} {id : JobId} {now : Time.Instant} {kind : JobKind}
      {input : JobInput} (wanted : asked kind input) (calls : Untouched called.1 called.2)
      (reserves : Untouched reserved.1 reserved.2) (stores : Records (.new id now kind input) stored.1 stored.2)
      (enters : Enters id entered.1 entered.2) : Dealt asked [called, reserved, stored, entered] (.announced id)

/-- These are the dealings of a submission that has been answered with an id: besides two moves that leave the jobs
alone, it has recorded one job, entered it and sent it. -/
inductive Made (asked : JobKind → JobInput → Prop) (id : JobId) : List (World × World) → Prop where
  | made {called reserved stored entered sent : World × World} {now : Time.Instant} {kind : JobKind} {input : JobInput}
      (wanted : asked kind input) (calls : Untouched called.1 called.2) (reserves : Untouched reserved.1 reserved.2)
      (stores : Records (.new id now kind input) stored.1 stored.2) (enters : Enters id entered.1 entered.2)
      (sends : Dispatches id sent.1 sent.2) : Made asked id [called, reserved, stored, entered, sent]

/-- The dealings of a task fit a world when they are as far as the submission is, and agree with its answer. -/
structure Deals (number : Nat) (deals : List (World × World)) (world : World) : Prop where
  unborn : world.nextTask ≤ number → deals = []
  going : ∀ step, Table.get? number world.tasks = some (.submit step) → Dealt (world.Wants number) deals step
  refused : ∀ error, .answered number (.submitted (.error error)) ∈ world.history →
    ∀ deal ∈ deals, Untouched deal.1 deal.2
  accepted : ∀ id, .answered number (.submitted (.ok id)) ∈ world.history → Made (world.Wants number) id deals

theorem Dealt.mono {asked more : JobKind → JobInput → Prop} (dealt : Dealt asked deals step)
    (still : ∀ kind input, asked kind input → more kind input) : Dealt more deals step := by
  cases dealt with
  | waiting wanted calls => exact .waiting (still _ _ wanted) calls
  | reserved wanted calls reserves => exact .reserved (still _ _ wanted) calls reserves
  | inserted wanted calls reserves stores => exact .inserted (still _ _ wanted) calls reserves stores
  | announced wanted calls reserves stores enters => exact .announced (still _ _ wanted) calls reserves stores enters

theorem Made.mono {asked more : JobKind → JobInput → Prop} {id : JobId} (made : Made asked id deals)
    (still : ∀ kind input, asked kind input → more kind input) : Made more id deals := by
  cases made with
  | made wanted calls reserves stores enters sends =>
    exact .made (still _ _ wanted) calls reserves stores enters sends

/-- The moves of others leave the dealings of a task as they are. -/
theorem Deals.pass (fits : Deals number deals world) (nextTask : world.nextTask ≤ next.nextTask)
    (tasks : ∀ step, Table.get? number next.tasks = some (.submit step) →
      Table.get? number world.tasks = some (.submit step))
    (answers : ∀ answer, .answered number answer ∈ next.history → .answered number answer ∈ world.history)
    (kept : ∀ event ∈ world.history, event ∈ next.history) : Deals number deals next where
  unborn := fun early => fits.unborn (nextTask.trans early)
  going := fun step found => (fits.going step (tasks step found)).mono
    fun _ _ ⟨call, told, same⟩ => ⟨call, kept _ told, same⟩
  refused := fun error told => fits.refused error (answers _ told)
  accepted := fun id told => (fits.accepted id (answers _ told)).mono
    fun _ _ ⟨call, told, same⟩ => ⟨call, kept _ told, same⟩

/-- These are the ways in which a step of a submission can go. -/
inductive Submits (number : Nat) (chance : Chance) (world : World) : SubmitStep → World → Prop where
  | refuse {step : SubmitStep} {base : World} {error : QueueError} (history : base.history = world.history)
      (early : ∀ id, step ≠ .inserted id ∧ step ≠ .announced id) (alone : Untouched world base) :
      Submits number chance world step (base.answer number (.submitted (.error error)))
  | reserve {base : World} {kind : JobKind} {input : JobInput} (history : base.history = world.history)
      (alone : Untouched world base) : Submits number chance world (.waiting kind input)
        (base.goOn number (.submit (.reserved (.new chance.name chance.now kind input))))
  | record {base : World} {record : JobRecord} (history : base.history = world.history)
      (records : Records record world base) : Submits number chance world (.reserved record)
        (base.goOn number (.submit (.inserted record.id)))
  | enter {base : World} {id : JobId} (history : base.history = world.history) (enters : Enters id world base) :
      Submits number chance world (.inserted id) (base.goOn number (.submit (.announced id)))
  | dispatch {base : World} {id : JobId} (history : base.history = world.history) (sends : Dispatches id world base) :
      Submits number chance world (.announced id) (base.answer number (.submitted (.ok id)))

theorem submits (world : World) (number : Nat) (chance : Chance) (step : SubmitStep) :
    Submits number chance world step (world.stepSubmit number chance step) := by
  generalize stepped : world.stepSubmit number chance step = next
  cases submitBranch stepped with
  | closed | full => exact .refuse rfl (by simp) ⟨rfl, rfl, rfl⟩
  | reserves => exact .reserve rfl ⟨rfl, rfl, rfl⟩
  | inserts done =>
    obtain ⟨free, rfl⟩ := JobStore.insert_of_ok done
    exact .record rfl ⟨free, rfl, rfl, rfl⟩
  | fails done =>
    obtain rfl := JobStore.insert_of_error done
    exact .refuse rfl (by simp) ⟨rfl, rfl, rfl⟩
  | enters => exact .enter rfl ⟨rfl, rfl, rfl⟩
  | sends => exact .dispatch rfl ⟨rfl, rfl, rfl⟩

/-- A dealing that goes on has not been answered. -/
theorem deals_goOn {base : World} {after : SubmitStep} (there : number < next.nextTask)
    (shape : next = base.goOn number (.submit after)) (silent : ∀ answer, .answered number answer ∉ base.history)
    (dealt : Dealt (next.Wants number) deals after) : Deals number deals next where
  unborn := fun early => absurd there (Nat.not_lt.mpr early)
  going := fun step found => by
    subst shape
    have here := (Table.get?_insert_self _ _ _).symm.trans found
    obtain rfl : after = step := by simpa using here
    exact dealt
  refused := fun error told => absurd (shape ▸ told) (silent _)
  accepted := fun id told => absurd (shape ▸ told) (silent _)

/-- A dealing that is answered agrees with the answer. -/
theorem deals_answer {base : World} {result : Except QueueError JobId} (there : number < next.nextTask)
    (shape : next = base.answer number (.submitted result)) (silent : ∀ answer, .answered number answer ∉ base.history)
    (refused : ∀ error, result = .error error → ∀ deal ∈ deals, Untouched deal.1 deal.2)
    (accepted : ∀ id, result = .ok id → Made (next.Wants number) id deals) : Deals number deals next := by
  have told {answer : Answer} (member : .answered number answer ∈ next.history) : answer = .submitted result := by
    subst shape
    rcases List.mem_append.mp member with before | now
    · exact absurd before (silent answer)
    · simpa using now
  refine ⟨fun early => absurd there (Nat.not_lt.mpr early), fun step found => ?_, fun error member => ?_,
    fun id member => ?_⟩
  · subst shape
    have gone := (Table.get?_erase_self _ _).symm.trans found
    simp at gone
  · exact refused error (Answer.submitted.inj (told member)).symm
  · exact accepted id (Answer.submitted.inj (told member)).symm

/-- A step of a submission adds one dealing, which fits what the submission is then. -/
theorem Deals.submit (fits : Deals number deals world) (found : Table.get? number world.tasks = some (.submit step))
    (there : number < world.nextTask) (silent : ∀ answer, .answered number answer ∉ world.history)
    (submits : Submits number chance world step next) (outcome : Outcome number .submit world next) :
    Deals number (deals ++ [(world, next)]) next := by
  have dealt : Dealt (next.Wants number) deals step := (fits.going step found).mono
    fun _ _ ⟨call, told, same⟩ => ⟨call, outcome.kept told, same⟩
  have there := Nat.lt_of_lt_of_le there outcome.nextTask
  cases submits with
  | @refuse _ base error history early alone =>
    have last : Untouched world (base.answer number (.submitted (.error error))) := ⟨alone.jobs, alone.live, alone.ids⟩
    refine deals_answer there rfl (history ▸ silent) (fun _ _ => ?_) (by simp)
    cases dealt with
    | waiting wanted calls => simp [calls, last]
    | reserved wanted calls reserves => simp [calls, reserves, last]
    | inserted => exact absurd rfl (early _).1
    | announced => exact absurd rfl (early _).2
  | @reserve base kind input history alone =>
    cases dealt with
    | waiting wanted calls =>
      exact deals_goOn there rfl (history ▸ silent) (.reserved wanted calls ⟨alone.jobs, alone.live, alone.ids⟩)
  | @record base record history records =>
    cases dealt with
    | reserved wanted calls reserves =>
      exact deals_goOn there rfl (history ▸ silent)
        (.inserted wanted calls reserves ⟨records.free, records.jobs, records.live, records.ids⟩)
  | @enter base id history enters =>
    cases dealt with
    | inserted wanted calls reserves stores =>
      exact deals_goOn there rfl (history ▸ silent)
        (.announced wanted calls reserves stores ⟨enters.jobs, enters.live, enters.ids⟩)
  | @dispatch base id history sends =>
    cases dealt with
    | announced wanted calls reserves stores enters =>
      refine deals_answer there rfl (history ▸ silent) (by simp) fun other same => ?_
      obtain rfl := Except.ok.inj same
      exact .made wanted calls reserves stores enters ⟨sends.jobs, sends.live, sends.channel⟩

/-- A task of another duty submits nothing and is answered otherwise. -/
theorem deals_of_duty {duty : Duty} (outcome : Outcome number duty world next) (differ : duty ≠ .submit)
    (there : number < next.nextTask) (silent : ∀ answer, .answered number answer ∉ world.history)
    (deals : List (World × World)) : Deals number deals next := by
  have other {result : Except QueueError JobId} (told : .answered number (.submitted result) ∈ next.history) :
      False := by
    rcases outcome.answers told with before | ⟨_, duty, _⟩
    · exact silent _ before
    · exact differ duty.symm
  refine ⟨fun early => absurd there (Nat.not_lt.mpr early), fun step found => ?_, fun _ told => (other told).elim,
    fun _ told => (other told).elim⟩
  rcases outcome.came found with ⟨apart, _⟩ | ⟨_, duty⟩ | ⟨apart, _⟩
  · exact absurd rfl apart
  · exact absurd duty.symm differ
  · exact absurd rfl apart

/-- A call that wants a job begins its dealings. -/
theorem Deals.call (fits : Deals number deals world) (numbered : world.Numbered) (closed : world.Closed)
    (own : world.nextTask = number) (call : Call) :
    Deals number (deals ++ [(world, beginCall setting world call)]) (beginCall setting world call) := by
  subst own
  have silent (answer : Answer) : .answered world.nextTask answer ∉ (world.opened call).history := by
    intro told
    rcases List.mem_append.mp told with before | now
    · exact Nat.lt_irrefl _ (closed _ _ before).1
    · simp at now
  have there : world.nextTask < (beginCall setting world call).nextTask := by
    rw [nextTask_beginCall]
    exact Nat.lt_succ_self _
  have outcome : Outcome world.nextTask call.duty (world.opened call) (beginCall setting world call) :=
    outcome_call numbered call
  rw [fits.unborn (Nat.le_refl _), List.nil_append]
  have told : .called world.nextTask call ∈ (beginCall setting world call).history :=
    outcome.kept (List.mem_append_right _ (List.mem_singleton_self _))
  have answers (error : QueueError) : Deals world.nextTask
      [(world, (world.opened call).answer world.nextTask (.submitted (.error error)))]
      ((world.opened call).answer world.nextTask (.submitted (.error error))) := by
    have alone : Untouched world ((world.opened call).answer world.nextTask (.submitted (.error error))) :=
      ⟨rfl, rfl, rfl⟩
    exact deals_answer (Nat.lt_succ_self _) rfl silent (by simp [alone]) (by simp)
  generalize begun : beginCall setting world call = next at there outcome told ⊢
  cases callBranch begun with
  | unresolved | refuses => exact answers _
  | submits asked => exact deals_goOn there rfl silent (.waiting ⟨_, told, asked⟩ ⟨rfl, rfl, rfl⟩)
  | _ => exact deals_of_duty outcome (by simp [Call.duty]) there silent _

theorem dealings_concat (setting : Setting) (number : Nat) (start : World) (moves : List Move) (move : Move) :
    dealings setting number start (moves ++ [move]) = dealings setting number start moves ++
      match move? setting (run setting start moves) move with
      | none => []
      | some next => if (run setting start moves).makes number move then [(run setting start moves, next)] else [] := by
  induction moves generalizing start with
  | nil =>
    show dealings setting number start [move] = _
    rw [dealings, dealings, List.nil_append]
    show _ = match move? setting start move with
      | none => []
      | some next => if start.makes number move then [(start, next)] else []
    cases move? setting start move with
    | none => rfl
    | some next =>
      dsimp only
      split <;> rfl
  | cons first rest inductionHypothesis =>
    have goes : run setting start (first :: rest) = run setting (World.move setting start first) rest := rfl
    rw [List.cons_append, dealings, dealings, goes, World.move]
    cases move? setting start first with
    | none => exact inductionHypothesis start
    | some after =>
      have further := inductionHypothesis after
      dsimp only [Option.getD_some]
      split
      · rw [further, List.cons_append]
      · exact further

/-- The steps of others leave the dealings of a task as they are. -/
theorem Deals.others (fits : Deals number deals world) {mover : Nat} {duty : Duty}
    (outcome : Outcome mover duty world next) (differ : number ≠ mover) : Deals number deals next := by
  refine fits.pass outcome.nextTask (fun step found => ?_) (fun answer told => ?_) fun _ told => outcome.kept told
  · rcases outcome.came found with ⟨_, there⟩ | ⟨same, _⟩ | ⟨_, helps⟩
    · exact there
    · exact absurd same differ
    · simp [Task.Helps] at helps
  · rcases outcome.answers told with before | ⟨same, _⟩
    · exact before
    · exact absurd same differ

/-- A move leaves the dealings of each task as far as the task is, and in agreement with its answer. -/
theorem Deals.move (fits : Deals number deals world) (tidy : world.Tidy) (closed : world.Closed) {move : Move}
    (moved : move? setting world move = some next) :
    Deals number (deals ++ if world.makes number move then [(world, next)] else []) next := by
  have apart (idle : world.makes number move = false) (still : Deals number deals next) :
      Deals number (deals ++ if world.makes number move then [(world, next)] else []) next := by
    rw [idle, if_neg Bool.false_ne_true, List.append_nil]
    exact still
  cases move with
  | call call =>
    rw [← Option.some.inj moved]
    by_cases own : world.nextTask = number
    · rw [makes, if_pos (decide_eq_true own)]
      exact fits.call tidy.numbered closed own call
    · have noted : Deals number deals (world.opened call) := by
        refine fits.pass (Nat.le_succ _) (fun _ found => found) (fun answer told => ?_)
          fun _ told => List.mem_append_left _ told
        rcases List.mem_append.mp told with before | now
        · exact before
        · simp at now
      rw [makes, if_neg (by simpa using own), List.append_nil]
      exact noted.others (outcome_call tidy.numbered call) (Ne.symm own)
  | deliver id =>
    refine apart rfl ?_
    rw [← Option.some.inj moved]
    exact fits.pass (Nat.le_refl _) (fun _ found => found) (fun _ told => told) fun _ told => told
  | restart =>
    refine apart rfl ?_
    obtain ⟨_, _, _, _, _, _, rfl⟩ := stores_of_restart moved
    exact fits.pass (Nat.le_refl _) (fun _ found => by simp [crash] at found) (fun _ told => told)
      fun _ told => told
  | step other chance =>
    obtain ⟨task, found, stepped⟩ := task_of_step moved
    have outcome := outcome_of_step tidy.numbered stepped
    by_cases own : other = number
    · subst own
      rw [makes, if_pos (decide_eq_true rfl)]
      have there := tidy.numbered.below found
      have silent := closed.silent found
      have older := Nat.lt_of_lt_of_le there outcome.nextTask
      cases task with
      | submit step =>
        rw [← Option.some.inj stepped] at outcome ⊢
        exact fits.submit found there silent (submits world other chance step) outcome
      | _ => exact deals_of_duty outcome (by simp [Task.duty]) older silent (deals ++ [(world, next)])
    · rw [makes, if_neg (by simpa using own), List.append_nil]
      exact fits.others outcome (Ne.symm own)

/-- The dealings of each task of a run are as far as the task is, and agree with its answer. -/
theorem deals_of_run {storage : StorageConfig} (guarded : start.Guarded setting storage)
    (confined : ∀ data, storage = .file data → setting.Confined data) (idle : start.tasks = [])
    (silent : start.history = []) (number : Nat) (moves : List Move)
    (safe : ∀ number chance, .step number chance ∈ moves → ArtifactStore.isSafeId chance.name = true) :
    (run setting start moves).Closed ∧
      Deals number (dealings setting number start moves) (run setting start moves) := by
  induction moves using List.reverseRecOn with
  | nil =>
    refine ⟨fun _ _ told => ?_, fun _ => rfl, fun step found => ?_, fun _ told => ?_, fun _ told => ?_⟩
    · simp [run, silent] at told
    · simp [run, idle] at found
    · simp [run, silent] at told
    · simp [run, silent] at told
  | append_singleton moves last inductionHypothesis =>
    have safeBefore (number : Nat) (chance : Chance) (member : .step number chance ∈ moves) :
        ArtifactStore.isSafeId chance.name = true := safe number chance (List.mem_append_left _ member)
    obtain ⟨closed, fits⟩ := inductionHypothesis safeBefore
    have tidy := (guarded.run confined safeBefore).tidy
    rw [dealings_concat, run_concat, World.move]
    cases moved : move? setting (run setting start moves) last with
    | none =>
      rw [List.append_nil]
      exact ⟨closed, fits⟩
    | some next => exact ⟨closed.move tidy.numbered moved, fits.move tidy closed moved⟩

end ContractWorks.World

namespace ContractWorks

/-- This function counts the steps that a submission has still to take at most. -/
def SubmitStep.ahead : SubmitStep → Nat
  | .waiting _ _ => 4
  | .reserved _ => 3
  | .inserted _ => 2
  | .announced _ => 1

/-- A submission ends or comes nearer to its end with each of its steps. -/
theorem World.Submits.nearer {number : Nat} {chance : Chance} {world next : World} {step : SubmitStep}
    (submits : World.Submits number chance world step next) :
    Table.get? number next.tasks = none ∨
      ∃ after : SubmitStep, Table.get? number next.tasks = some (.submit after) ∧ after.ahead < step.ahead := by
  cases submits with
  | refuse history early alone => exact .inl (Table.get?_erase_self _ _)
  | reserve history alone => exact .inr ⟨_, Table.get?_insert_self _ _ _, Nat.lt_succ_self _⟩
  | record history records => exact .inr ⟨_, Table.get?_insert_self _ _ _, Nat.lt_succ_self _⟩
  | enter history enters => exact .inr ⟨_, Table.get?_insert_self _ _ _, Nat.lt_succ_self _⟩
  | dispatch history sends => exact .inl (Table.get?_erase_self _ _)

namespace Schedule

variable {schedule : Schedule} {number : Nat}

/-- The digits of a number may stand in an id. -/
theorem isAlphanum_of_mem_toDigits (number : Nat) {digit : Char} (member : digit ∈ Nat.toDigits 16 number) :
    digit.isAlphanum = true := by
  have single : ∀ value < 16, (Nat.digitChar value).isAlphanum = true := by decide
  induction number using Nat.strongRecOn with
  | _ number inductionHypothesis =>
    rw [Nat.toDigits_eq_if (by decide)] at member
    split at member
    · next small => exact List.mem_singleton.mp member ▸ single number small
    · next large =>
      rcases List.mem_append.mp member with higher | last
      · exact inductionHypothesis (number / 16) (by omega) higher
      · exact List.mem_singleton.mp last ▸ single (number % 16) (Nat.mod_lt _ (by decide))

theorem toList_append_ofList (first : String) (second : List Char) :
    (first ++ String.ofList second).toList = first.toList ++ second := by
  rw [String.toList_append, String.toList_ofList]

/-- The names that a schedule gives out may name files. -/
theorem isSafeId_nameOf (number : Nat) : ArtifactStore.isSafeId (nameOf number) = true := by
  have start : ∀ character ∈ "00000000-0000-4000-8000-".toList,
      (character.isAlphanum || character = '-') = true := List.all_eq_true.mp (by decide)
  have letters : (nameOf number).toList = "00000000-0000-4000-8000-".toList ++
      (List.replicate (12 - (Nat.toDigits 16 number).length) '0' ++ Nat.toDigits 16 number) := by
    exact toList_append_ofList _ _
  have all : ∀ character ∈ (nameOf number).toList, (character.isAlphanum || character = '-') = true := by
    intro character member
    rw [letters] at member
    rcases List.mem_append.mp member with before | rest
    · exact start character before
    · rcases List.mem_append.mp rest with zero | digit
      · rw [List.eq_of_mem_replicate zero]
        decide
      · rw [isAlphanum_of_mem_toDigits number digit, Bool.true_or]
  have nonempty : nameOf number ≠ "" := by
    intro empty
    rw [empty] at letters
    simp at letters
  rw [ArtifactStore.isSafeId, Bool.and_eq_true]
  exact ⟨decide_eq_true nonempty, List.all_eq_true.mpr all⟩

/-- The chance of a step has a name that may name files, and leaves the world of a schedule alone. -/
theorem chanceOf_spec (schedule : Schedule) (task : Task) :
    ArtifactStore.isSafeId (schedule.chanceOf task).1.name = true ∧
      (schedule.chanceOf task).2.world = schedule.world ∧ (schedule.chanceOf task).2.setting = schedule.setting := by
  have calls (schedule : Schedule) (method : StoreMethod) : (schedule.callStore method).2.world = schedule.world ∧
      (schedule.callStore method).2.setting = schedule.setting := by
    rw [callStore]
    split <;> exact ⟨rfl, rfl⟩
  rw [chanceOf]
  dsimp only [freshName, tick]
  split
  · exact ⟨isSafeId_nameOf _, rfl, rfl⟩
  · next method _ =>
    obtain ⟨world, setting⟩ := calls
      { schedule with names := schedule.names + 1, clock := schedule.clock.nextSecond } method
    exact ⟨isSafeId_nameOf _, world, setting⟩

/-- A schedule takes the next step of a submission, as the submission never has to wait. -/
theorem advance?_submit (schedule : Schedule) (number : Nat) (step : SubmitStep) :
    ∃ chance after, ArtifactStore.isSafeId chance.name = true ∧
      schedule.advance? number (.submit step) = some after ∧ after.setting = schedule.setting ∧
        after.world = schedule.world.stepSubmit number chance step := by
  obtain ⟨safe, _, setting⟩ := chanceOf_spec schedule (.submit step)
  exact ⟨(schedule.chanceOf (.submit step)).1, _, safe, rfl, setting, rfl⟩

/-- A schedule that finishes a submission runs its steps until there are none. -/
theorem finishTaskFor_submit (steps : Nat) : ∀ {schedule : Schedule},
    (Table.get? number schedule.world.tasks = none ∨ ∃ step : SubmitStep,
      Table.get? number schedule.world.tasks = some (.submit step) ∧ step.ahead ≤ steps) →
      ∃ chances : List Chance, (∀ chance ∈ chances, ArtifactStore.isSafeId chance.name = true) ∧
        (finishTaskFor steps schedule number).setting = schedule.setting ∧
        (finishTaskFor steps schedule number).world = World.run schedule.setting schedule.world
          (chances.map fun chance => .step number chance) ∧
        Table.get? number (finishTaskFor steps schedule number).world.tasks = none := by
  induction steps with
  | zero =>
    intro schedule ready
    rcases ready with gone | ⟨step, _, few⟩
    · exact ⟨[], by simp, rfl, rfl, gone⟩
    · cases step <;> simp [SubmitStep.ahead] at few
  | succ steps inductionHypothesis =>
    intro schedule ready
    rw [finishTaskFor]
    rcases ready with gone | ⟨step, found, few⟩
    · rw [gone]
      exact ⟨[], by simp, rfl, rfl, gone⟩
    · obtain ⟨chance, after, safe, advanced, setting, world⟩ := advance?_submit schedule number step
      simp only [found, advanced]
      have next : Table.get? number after.world.tasks = none ∨ ∃ step : SubmitStep,
          Table.get? number after.world.tasks = some (.submit step) ∧ step.ahead ≤ steps := by
        rw [world]
        refine (World.submits schedule.world number chance step).nearer.imp_right ?_
        rintro ⟨later, there, nearer⟩
        exact ⟨later, there, by omega⟩
      obtain ⟨chances, all, same, ran, gone⟩ := inductionHypothesis next
      refine ⟨chance :: chances, ?_, same.trans setting, ?_, gone⟩
      · simpa [safe] using all
      · rw [ran, setting, world, World.run_steps_of_submit found]

end Schedule

end ContractWorks
