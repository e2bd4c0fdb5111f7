import ContractWorks.Proofs.Queue.Once
import ContractWorks.Proofs.Queue.Outcome

namespace ContractWorks

/-- These are the stages that a job comes to only with a record. -/
def Stage.NeedsRecord : Stage → Prop
  | .inserted => True
  | .announced => True
  | .pending => True
  | .busy => True
  | _ => False

/-- A job is founded when it has a record as soon as it has a live entry or somebody works on it. -/
structure View.Founded (view : View) : Prop where
  live : view.live ≠ none → view.record ≠ none
  held : ∀ stage ∈ view.custody, stage.NeedsRecord → view.record ≠ none

namespace View

variable {reason : Mark → Prop} {view next : View} {rest : Custody} {stage : Stage}

/-- A record does not vanish. -/
theorem recorded_of_change (change : Change reason view next) (known : view.record ≠ none) :
    next.record ≠ none := by
  rcases change.record_cases with same | ⟨record, free, _⟩ | ⟨record, after, _, _, _, stored, _⟩
  · rwa [same]
  · exact absurd free known
  · simp [stored]

/-- A founded job stays so, if a start that enters it knows its record. -/
theorem Founded.change (founded : view.Founded) (change : Change reason view next)
    (entered : reason .recovering → next.live ≠ view.live → view.record ≠ none) : next.Founded := by
  by_cases known : view.record ≠ none
  · have still := recorded_of_change change known
    exact ⟨fun _ => still, fun _ _ _ => still⟩
  · -- A job without a record has no live entry, and nobody works on it.
    have unknown : view.record = none := not_not.mp known
    have absent : view.live = none := by
      by_contra there
      exact known (founded.live there)
    have bare {stage : Stage} (member : stage ∈ view.custody) (needs : stage.NeedsRecord) : False :=
      known (founded.held stage member needs)
    have worked {rest : Custody} {stage : Stage} (held : view.custody = rest + {stage}) (needs : stage.NeedsRecord) :
        next.Founded := by
      refine (bare ?_ needs).elim
      rw [held]
      exact Multiset.mem_add.mpr (.inr (Multiset.mem_singleton_self _))
    have fewer {rest lost : Custody} (held : view.custody = rest + lost) {stage : Stage} (member : stage ∈ rest)
        (needs : stage.NeedsRecord) : False := by
      refine bare ?_ needs
      rw [held]
      exact Multiset.mem_add.mpr (.inl member)
    have keeps (live : next.live = none) (held : ∀ stage ∈ next.custody, stage.NeedsRecord → False) :
        next.Founded := ⟨fun there => absurd live there, fun stage member needs => (held stage member needs).elim⟩
    have turned {rest : Custody} {before after : Stage} (held : view.custody = rest + {before})
        (light : ¬after.NeedsRecord) {stage : Stage} (member : stage ∈ rest + {after}) (needs : stage.NeedsRecord) :
        False := by
      rcases Multiset.mem_add.mp member with other | own
      · exact fewer held other needs
      · exact light (Multiset.mem_singleton.mp own ▸ needs)
    have found {record : JobRecord} (there : view.record = some record) : next.Founded :=
      absurd there (by simp [unknown])
    cases change with
    | none becomes => exact becomes ▸ founded
    | insert free queued becomes => exact becomes ▸ ⟨fun _ => by simp, fun _ _ _ => by simp⟩
    | announce held becomes => exact worked held trivial
    | accept held becomes => exact worked held trivial
    | start held there applied becomes => exact found there
    | skip held there started becomes => exact found there
    | unstarted why held becomes =>
      subst becomes
      exact keeps absent fun _ => turned held id
    | again held becomes =>
      subst becomes
      exact keeps absent fun _ => turned held id
    | shelve why held becomes =>
      subst becomes
      exact keeps absent fun _ => turned held id
    | raise held works low becomes => rcases works with rfl | rfl <;> exact worked held trivial
    | invoke held becomes => exact worked held trivial
    | yield held becomes => exact worked held trivial
    | finish held there applied becomes => exact found there
    | unwritten why held becomes => exact worked held trivial
    | leave held becomes =>
      subst becomes
      exact keeps rfl fun _ => fewer held
    | drop why held becomes =>
      subst becomes
      exact keeps absent fun _ => fewer held
    | acceptInVain why held becomes => exact worked held trivial
    | orphan why there applied becomes => exact found there
    | enter why becomes =>
      subst becomes
      exact absurd (entered why (by simp [absent])) known
    | deliver why becomes =>
      subst becomes
      refine keeps absent fun stage member needs => ?_
      rcases Multiset.mem_add.mp member with other | own
      · exact bare other needs
      · exact (Multiset.mem_singleton.mp own ▸ needs : Stage.NeedsRecord .waiting)
    | restart why becomes =>
      subst becomes
      exact keeps rfl fun _ member => absurd member (Multiset.notMem_zero _)

end View

/-- This function gives the ids that a start may still enter. -/
def StartStep.toEnter : StartStep → List JobId
  | .checking ids _ => ids
  | .entering id ids _ => id :: ids
  | _ => []

namespace World

variable {setting : Setting} {world base next : World} {number : Nat} {chance : Chance} {step after : StartStep}

/-- A world is founded when its jobs are, and when a start enters only jobs that have a record. -/
structure Founded (world : World) : Prop where
  jobs : ∀ id, (world.view id).Founded
  listed : ∀ number step, Table.get? number world.tasks = some (.start step) →
    ∀ id ∈ step.toEnter, (world.view id).record ≠ none

/-- A step of a start is grounded when it makes live entries only of the ids that the start may enter, and when the
start learns of others only from the store. -/
structure Grounded (number : Nat) (step : StartStep) (world next : World) : Prop where
  live : ∀ id, Table.get? id next.live ≠ Table.get? id world.live → id ∈ step.toEnter
  learned : ∀ after, Table.get? number next.tasks = some (.start after) → ∀ id ∈ after.toEnter,
    id ∈ step.toEnter ∨ Table.get? id world.jobs.records ≠ none

theorem grounded_goOn (live : base.live = world.live)
    (learned : ∀ id ∈ after.toEnter, id ∈ step.toEnter ∨ Table.get? id world.jobs.records ≠ none) :
    Grounded number step world (base.goOn number (.start after)) where
  live := fun id changed => absurd (congrArg (Table.get? id) live) changed
  learned := fun other found => by
    have here := (Table.get?_insert_self _ _ _).symm.trans found
    obtain rfl : after = other := by simpa using here
    exact learned

theorem grounded_answer (live : base.live = world.live) (answer : Answer) :
    Grounded number step world (base.answer number answer) where
  live := fun id changed => absurd (congrArg (Table.get? id) live) changed
  learned := fun other found => by
    have gone := (Table.get?_erase_self _ _).symm.trans found
    simp at gone

theorem grounded_failStart (live : base.live = world.live) (error : QueueError) :
    Grounded number step world (base.failStart number error) := by
  have lost : ({ base with channel := base.channel.lose } : World).live = world.live := live
  exact grounded_answer lost _

/-- A start makes live entries of jobs that wait in the store. -/
theorem grounded_start (keyed : world.jobs.Keyed) (step : StartStep) :
    Grounded number step world (stepStart setting world number chance step) := by
  have nothing {base : World} {after : StartStep} (live : base.live = world.live) (none : after.toEnter = []) :
      Grounded number step world (base.goOn number (.start after)) := grounded_goOn live (by simp [none])
  generalize stepped : stepStart setting world number chance step = next
  cases startBranch stepped with
  | late => exact grounded_answer rfl _
  | unlisted | breaks | unlistedAgain | shut => exact grounded_failStart (by rfl) _
  | listsAgain listed =>
    refine grounded_goOn rfl fun id member => .inr ?_
    obtain ⟨record, found, _⟩ := ((keyed.lists listed).mem id).mp member
    simp [found]
  | known => exact grounded_goOn rfl fun id member => .inl (List.mem_cons_of_mem _ member)
  | unknown => exact grounded_goOn rfl fun id member => .inl member
  | @enters held ids report =>
    refine ⟨fun id changed => ?_, fun other found id member => .inl ?_⟩
    · by_cases same : id = held
      · exact same ▸ List.mem_cons_self
      · exact absurd (LiveTable.get?_queued_of_ne same) changed
    · have here := (Table.get?_insert_self _ _ _).symm.trans found
      obtain rfl : StartStep.checking ids { report with requeued := report.requeued ++ [held] } = other := by
        simpa using here
      exact List.mem_cons_of_mem _ member
  | spawns =>
    have live := (spawnWorkers_kept setting.workerCount
      { world with channel := { world.channel with receiver := .shared } }).2.1
    exact grounded_answer (by exact live) _
  | _ => exact nothing rfl rfl

theorem founded_of_idle (none : ∀ id, Table.get? id world.live = none) (idle : world.tasks = [])
    (empty : world.channel.ids = []) : world.Founded where
  jobs := fun id => by
    have nobody : (world.view id).custody = 0 := by
      show custody id world = 0
      rw [custody, idle, empty]
      rfl
    exact ⟨fun there => absurd (none id) there, fun stage member => by simp [nobody] at member⟩
  listed := fun number step found => by simp [idle] at found

/-- A start that is there after a move has been there before, or it is the one that moves. -/
theorem Outcome.start {duty : Duty} {other : Nat} (outcome : Outcome number duty base next)
    (found : Table.get? other next.tasks = some (.start after)) :
    Table.get? other base.tasks = some (.start after) ∨ (other = number ∧ duty = .start) := by
  rcases outcome.came found with ⟨_, there⟩ | ⟨same, duty⟩ | ⟨_, helps⟩
  · exact .inl there
  · exact .inr ⟨same, duty.symm⟩
  · simp [Task.Helps] at helps

/-- A move keeps a world founded. -/
theorem Founded.move (founded : world.Founded) (tidy : world.Tidy) {move : Move} (advances : Advances world move next)
    (moved : move? setting world move = some next) : next.Founded := by
  have still (id : JobId) (known : (world.view id).record ≠ none) : (next.view id).record ≠ none :=
    View.recorded_of_change (advances.change id) known
  refine ⟨fun id => (founded.jobs id).change (advances.change id) ?_, ?_⟩
  · rintro ⟨number, chance, step, rfl, found, _⟩ changed
    rw [move?, step?, found] at moved
    obtain rfl := Option.some.inj moved
    exact founded.listed number step found id ((grounded_start tidy.keyed step).live id changed)
  · intro other after found id member
    cases move with
    | call call =>
      have begun := Option.some.inj moved
      rcases (begun ▸ outcome_call tidy.numbered call).start found with there | ⟨rfl, duty⟩
      · exact still id (founded.listed other after there id member)
      · -- A start that has just been called may not enter anything yet.
        obtain rfl : call = .start := by cases call <;> simp [Call.duty] at duty ⊢
        have here : Table.get? world.nextTask (beginCall setting world .start).tasks = some (.start .waiting) :=
          Table.get?_insert_self _ _ _
        rw [begun, found] at here
        obtain rfl : after = .waiting := by simpa using here
        simp [StartStep.toEnter] at member
    | deliver held =>
      rw [← Option.some.inj moved] at found
      exact still id (founded.listed other after found id member)
    | restart =>
      obtain ⟨_, _, _, _, _, _, rfl⟩ := stores_of_restart moved
      simp [crash] at found
    | step number chance =>
      obtain ⟨task, there, stepped⟩ := task_of_step moved
      rcases (outcome_of_step tidy.numbered stepped).start found with stood | ⟨rfl, duty⟩
      · exact still id (founded.listed other after stood id member)
      · cases task with
        | start step =>
          obtain rfl := Option.some.inj stepped
          rcases (grounded_start tidy.keyed step).learned after found id member with old | known
          · exact still id (founded.listed other step there id old)
          · exact still id known
        | _ => simp [Task.duty] at duty

/-- All moves of a run keep a world founded. -/
theorem founded_of_run {storage : StorageConfig} {start : World} (guarded : start.Guarded setting storage)
    (confined : ∀ data, storage = .file data → setting.Confined data) (founded : start.Founded) (moves : List Move)
    (safe : ∀ number chance, .step number chance ∈ moves → ArtifactStore.isSafeId chance.name = true) :
    (run setting start moves).Founded := by
  induction moves using List.reverseRecOn with
  | nil => exact founded
  | append_singleton moves last inductionHypothesis =>
    have safeBefore (number : Nat) (chance : Chance) (member : .step number chance ∈ moves) :
        ArtifactStore.isSafeId chance.name = true := safe number chance (List.mem_append_left _ member)
    have before := inductionHypothesis safeBefore
    have between := guarded.run confined safeBefore
    rw [run_concat, World.move]
    cases moved : move? setting (run setting start moves) last with
    | none => exact before
    | some next => exact before.move between.tidy (between.advances moved) moved

end World

end ContractWorks
