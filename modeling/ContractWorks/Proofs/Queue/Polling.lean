import ContractWorks.Proofs.Queue.Look
import ContractWorks.Proofs.Queue.Owner

namespace ContractWorks

open ArtifactStore (Lasts)

namespace JobStatus

/-- A status is final when it says that the job has ended. -/
def IsFinal (status : JobStatus) : Prop :=
  status.state = .completed ∨ status.state = .failed

/-- A status is whole when it shows full progress exactly for a job that has ended. -/
def IsWhole (status : JobStatus) : Prop :=
  status.progress = Progress.terminal ↔ status.IsFinal

/-- A status precedes another one that shows no less, and that is the same when it is final. -/
structure Precedes (former latter : JobStatus) : Prop where
  state : former.state.rank ≤ latter.state.rank
  progress : former.progress ≤ latter.progress
  final : former.IsFinal → latter = former

theorem Precedes.refl (status : JobStatus) : status.Precedes status :=
  ⟨Nat.le_refl _, UInt8.le_refl _, fun _ => rfl⟩

theorem isFinal_of_rank {status : JobStatus} (ended : 2 ≤ status.state.rank) : status.IsFinal := by
  unfold IsFinal
  cases state : status.state <;> simp_all [ExternalState.rank]

theorem rank_le_of_final {status other : JobStatus} (final : status.IsFinal) : other.state.rank ≤ status.state.rank := by
  have most : other.state.rank ≤ 2 := by cases other.state <;> decide
  rcases final with completed | failed
  · exact completed ▸ most
  · exact failed ▸ most

theorem isWhole_of_final {status : JobStatus} (final : status.IsFinal) (full : status.progress = Progress.terminal) :
    status.IsWhole :=
  ⟨fun _ => final, fun _ => full⟩

theorem isWhole_of_low {status : JobStatus} (open_ : ¬status.IsFinal)
    (low : status.progress ≤ Progress.outputCollected) : status.IsWhole := by
  refine ⟨fun full => ?_, fun final => absurd final open_⟩
  rw [full] at low
  exact absurd low (by decide)

theorem progress_le_of_final {status : JobStatus} {progress : UInt8} (whole : status.IsWhole) (final : status.IsFinal)
    (low : progress ≤ Progress.outputCollected) : progress ≤ status.progress := by
  rw [whole.mpr final]
  exact UInt8.le_trans low (by decide)

end JobStatus

namespace World

variable {first second third next another last : World} {id : JobId} {found shown : Option JobStatus}
  {record : JobRecord} {live : Option LiveJob}

theorem isWhole_statusOf (low : ∀ entry, live = some entry → entry.progress ≤ Progress.outputCollected) :
    (statusOf record live).IsWhole := by
  rw [statusOf.eq_def]
  split
  · have none : Progress.queued ≤ Progress.outputCollected := by decide
    exact JobStatus.isWhole_of_low (by simp [JobStatus.IsFinal]) none
  · exact JobStatus.isWhole_of_low (by simp [JobStatus.IsFinal]) (low _ rfl)
  · exact JobStatus.isWhole_of_final (.inr rfl) rfl
  · exact JobStatus.isWhole_of_final (.inl rfl) rfl
  · exact JobStatus.isWhole_of_final (.inr rfl) rfl

/-- A job that is looked at shows no less than its record says. -/
theorem rank_le_statusOf (record : JobRecord) (live : Option LiveJob) :
    record.status.external.rank ≤ (statusOf record live).state.rank := by
  rw [statusOf.eq_def]
  split
  · next queued => simp [queued, JobState.external, ExternalState.rank]
  · next running => simp [running, JobState.external, ExternalState.rank]
  · next running => simp [running, JobState.external, ExternalState.rank]
  · next completed => simp [completed, JobState.external, ExternalState.rank]
  · next failed => simp [failed, JobState.external, ExternalState.rank]

/-- What is found of a job with a record is a whole status that shows no less than the record says. -/
theorem Finds.status (finds : Finds first second third id found)
    (stands : Table.get? id second.jobs.records = some record)
    (low : ∀ entry, Table.get? id first.live = some entry → entry.progress ≤ Progress.outputCollected) :
    ∃ status, found = some status ∧ status.IsWhole ∧ record.status.external.rank ≤ status.state.rank := by
  cases finds with
  | unrecorded absent => simp [absent] at stands
  | bare there _ =>
    obtain rfl := Option.some.inj (stands.symm.trans there)
    exact ⟨_, rfl, isWhole_statusOf low, rank_le_statusOf _ _⟩
  | whole there completed _ _ =>
    obtain rfl := Option.some.inj (stands.symm.trans there)
    refine ⟨_, rfl, JobStatus.isWhole_of_final (.inl rfl) rfl, ?_⟩
    rw [completed]
    exact Nat.le_refl _

theorem Finds.bare_of_open (finds : Finds first second third id found)
    (stands : Table.get? id second.jobs.records = some record) (open_ : record.status ≠ .completed) :
    found = some (statusOf record (Table.get? id first.live)) := by
  cases finds with
  | unrecorded absent => simp [absent] at stands
  | bare there _ => rw [Option.some.inj (stands.symm.trans there)]
  | whole there completed _ _ =>
    obtain rfl := Option.some.inj (stands.symm.trans there)
    exact absurd completed open_

/-- Of a record that has ended, the same is found each time. -/
theorem Finds.same_of_ended (former : Finds first second third id found) (latter : Finds next another last id shown)
    (stands : Table.get? id second.jobs.records = some record)
    (kept : Table.get? id another.jobs.records = some record) (ended : record.status.isTerminal = true)
    (lasts : ∀ artifact, Delivered second.jobs artifact →
      Lasts artifact third.artifacts third.disk last.artifacts last.disk) : shown = found := by
  cases former with
  | unrecorded absent => simp [absent] at stands
  | bare there lacks =>
    obtain rfl := Option.some.inj (stands.symm.trans there)
    cases latter with
    | unrecorded absent => simp [absent] at kept
    | bare again _ =>
      obtain rfl := Option.some.inj (kept.symm.trans again)
      cases status : record.status with
      | queued => simp [status, JobState.isTerminal] at ended
      | running => simp [status, JobState.isTerminal] at ended
      | completed => simp [statusOf, status]
      | failed => simp [statusOf, status]
    | whole again completed names _ =>
      obtain rfl := Option.some.inj (kept.symm.trans again)
      exact absurd names (lacks _ completed)
  | @whole _ artifact _ there completed names read =>
    obtain rfl := Option.some.inj (stands.symm.trans there)
    cases latter with
    | unrecorded absent => simp [absent] at kept
    | bare again lacks =>
      obtain rfl := Option.some.inj (kept.symm.trans again)
      exact absurd names (lacks _ completed)
    | whole again _ alike reread =>
      obtain rfl := Option.some.inj (kept.symm.trans again)
      obtain rfl := Option.some.inj (names.symm.trans alike)
      have early := lasts artifact ⟨id, record, stands, completed, names⟩ _ reread
      rw [Except.ok.inj (early.symm.trans read)]

/-- What a later look finds comes after what an earlier one has found. -/
theorem Finds.precedes (former : Finds first second third id found) (latter : Finds next another last id shown)
    (established : (second.view id).Established) (reads : (first.view id).Later (second.view id))
    (lives : (first.view id).Later (next.view id)) (looks : (first.view id).Later (another.view id))
    (records : (second.view id).Later (another.view id))
    (low : ∀ entry, Table.get? id first.live = some entry → entry.progress ≤ Progress.outputCollected)
    (lowNext : ∀ entry, Table.get? id next.live = some entry → entry.progress ≤ Progress.outputCollected)
    (lasts : ∀ artifact, Delivered second.jobs artifact →
      Lasts artifact third.artifacts third.disk last.artifacts last.disk) :
    ∃ early late, found = some early ∧ shown = some late ∧ early.Precedes late ∧ early.IsWhole ∧ late.IsWhole := by
  obtain ⟨record, stands⟩ := Option.ne_none_iff_exists'.mp established.stored
  obtain ⟨after, kept, further, stays⟩ := records.record record stands
  obtain ⟨early, rfl, wholeEarly, _⟩ := former.status stands low
  obtain ⟨late, rfl, wholeLate, reached⟩ := latter.status kept lowNext
  refine ⟨early, late, rfl, rfl, ?_, wholeEarly, wholeLate⟩
  have same (ended : record.status.isTerminal = true) : early.Precedes late := by
    have unchanged := stays ended
    subst unchanged
    obtain rfl := Option.some.inj (former.same_of_ended latter stands kept ended lasts)
    exact .refl _
  cases status : record.status with
  | completed => exact same (by rw [status]; rfl)
  | failed => exact same (by rw [status]; rfl)
  | queued =>
    have shows := Option.some.inj (former.bare_of_open stands (by simp [status]))
    simp only [statusOf, status] at shows
    subst shows
    have none : Progress.queued ≤ late.progress := UInt8.zero_le
    exact ⟨Nat.zero_le _, none, fun final => by simp [JobStatus.IsFinal] at final⟩
  | running =>
    have shows := Option.some.inj (former.bare_of_open stands (by simp [status]))
    cases entry : Table.get? id first.live with
    | none =>
      -- Nobody works on the job, so that its record is what it was when the live entry was read.
      have gone : (first.view id).live = none := entry
      have same : some after = some record := by
        calc some after = (another.view id).record := kept.symm
          _ = (first.view id).record := looks.gone gone
          _ = (second.view id).record := (reads.gone gone).symm
          _ = some record := stands
      obtain rfl := Option.some.inj same
      have absent : Table.get? id next.live = none := lives.gone_on gone
      have again := Option.some.inj (latter.bare_of_open kept (by simp [status]))
      rw [absent] at again
      rw [entry] at shows
      rw [shows, again]
      exact .refl _
    | some live =>
      rw [entry] at shows
      simp only [statusOf, status] at shows
      have few := low live entry
      have onward (final : late.IsFinal) : early.Precedes late := by
        refine ⟨JobStatus.rank_le_of_final final, ?_, fun ended => ?_⟩
        · rw [shows]
          exact JobStatus.progress_le_of_final wholeLate final few
        · rw [shows] at ended
          simp [JobStatus.IsFinal] at ended
      rw [status] at further
      cases state : after.status with
      | queued => simp [state, JobState.external, ExternalState.rank] at further
      | completed => exact onward (JobStatus.isFinal_of_rank (by rw [state] at reached; exact reached))
      | failed => exact onward (JobStatus.isFinal_of_rank (by rw [state] at reached; exact reached))
      | running =>
        have again := Option.some.inj (latter.bare_of_open kept (by simp [state]))
        cases entryNext : Table.get? id next.live with
        | none =>
          rw [entryNext] at again
          simp only [statusOf, state] at again
          exact onward (again ▸ .inr rfl)
        | some liveNext =>
          rw [entryNext] at again
          simp only [statusOf, state] at again
          obtain ⟨before, there, more⟩ := lives.live liveNext entryNext
          have same : some live = some before := entry.symm.trans there
          obtain rfl := Option.some.inj same
          subst shows again
          exact ⟨Nat.le_refl _, more, fun final => by simp [JobStatus.IsFinal] at final⟩

end World

end ContractWorks

namespace ContractWorks.World

open ArtifactStore (Lasts)

/-- These are the answers that a client gets about a job through some moves: it waits, or it looks once more after the
look before has been answered. A look that fails brings no answer. -/
inductive Polls (setting : Setting) (base : World) (id : JobId) : List Move → List (Option JobStatus) → Prop where
  | begin : Polls setting base id [] []
  | wait {moves : List Move} {answers : List (Option JobStatus)} (polls : Polls setting base id moves answers)
      (more : List Move) : Polls setting base id (moves ++ more) answers
  | look {moves more : List Move} {answers : List (Option JobStatus)}
      {result : Except QueueError (Option JobStatus)} (polls : Polls setting base id moves answers)
      (told : .answered (run setting base moves).nextTask (.status result) ∈
        (run setting base (moves ++ .call (.status id) :: more)).history) :
      Polls setting base id (moves ++ .call (.status id) :: more) (answers ++ result.toOption.toList)

variable {setting : Setting} {storage : StorageConfig} {disk : Disk} {jobs : JobStore} {artifacts : ArtifactStore}
  {start base : World} {first : Table JobId JobRecord} {report : RecoveryReport} {early moves more : List Move}
  {id : JobId} {found shown : Option JobStatus} {answers : List (Option JobStatus)}

/-- What is found some moves later is found in all of the moves. -/
theorem Found.after (here : Found setting (run setting base moves) more id found) :
    Found setting base (moves ++ more) id found := by
  obtain ⟨one, two, three, four, rfl, finds⟩ := here
  refine ⟨moves ++ one, two, three, four, by simp only [List.append_assoc], ?_⟩
  rw [← run_append, ← run_append, ← run_append] at finds
  simpa only [List.append_assoc] using finds

/-- What an established job looks like goes only forward from any of some ordinary moves to any later one. -/
theorem Begun.later_of_prefix (begun : Begun (Happened setting start early) first report (World.run setting start early))
    (established : ((World.run setting start early).view id).Established) {former latter : List Move}
    (ordinary : ∀ move ∈ latter, move.IsOrdinary) (order : former <+: latter) :
    ((World.run setting start (early ++ former)).view id).Established ∧
      ((World.run setting start (early ++ former)).view id).Later
        ((World.run setting start (early ++ latter)).view id) := by
  obtain ⟨between, rfl⟩ := order
  have ordinaryFormer (move : Move) (member : move ∈ former) : move.IsOrdinary :=
    ordinary move (List.mem_append_left _ member)
  have there := (begun.later ordinaryFormer established).1
  have onward := ((begun.run ordinaryFormer).later (fun move member =>
    ordinary move (List.mem_append_right _ member)) there).2
  rw [List.append_assoc] at onward
  exact ⟨there, onward⟩

/-- The live entry of a job does not say that the job has ended, however far a queue that has begun has come. -/
theorem Begun.low (begun : Begun (Happened setting start early) first report (World.run setting start early))
    (ordinary : ∀ move ∈ moves, move.IsOrdinary) {entry : LiveJob}
    (live : Table.get? id (World.run setting start (early ++ moves)).live = some entry) :
    entry.progress ≤ Progress.outputCollected :=
  ((begun.run ordinary).serves.served id).low live

/-- An artifact that has been delivered lasts from any of some ordinary moves to any later one. -/
theorem Begun.lasts_of_prefix (provided : Provided storage jobs artifacts disk) (stamps : setting.Stamps)
    (confined : ∀ data, storage = .file data → setting.Confined data)
    (begun : Begun (Happened setting (new setting disk jobs artifacts) early) jobs.records report
      (World.run setting (new setting disk jobs artifacts) early))
    (ordinaryEarly : ∀ move ∈ early, move.IsOrdinary) {former middle latter : List Move}
    (ordinary : ∀ move ∈ latter, move.IsOrdinary) (fresh : Fresh jobs.records (early ++ latter))
    (order : former <+: middle) (further : middle <+: latter) {artifact : ArtifactId}
    (delivered : Delivered (World.run setting (new setting disk jobs artifacts) (early ++ former)).jobs artifact) :
    Lasts artifact (World.run setting (new setting disk jobs artifacts) (early ++ middle)).artifacts
      (World.run setting (new setting disk jobs artifacts) (early ++ middle)).disk
      (World.run setting (new setting disk jobs artifacts) (early ++ latter)).artifacts
      (World.run setting (new setting disk jobs artifacts) (early ++ latter)).disk := by
  obtain ⟨between, rfl⟩ := order
  obtain ⟨beyond, rfl⟩ := further
  rw [← List.append_assoc] at fresh
  have all (move : Move) (member : move ∈ early ++ (former ++ between) ++ beyond) : move.IsOrdinary := by
    rw [List.append_assoc] at member
    exact (List.mem_append.mp member).elim (ordinaryEarly move) (ordinary move)
  have begunFormer := begun.run fun move member =>
    ordinary move (List.mem_append_left _ (List.mem_append_left between member))
  have begunMiddle := begun.run fun move member => ordinary move (List.mem_append_left beyond member)
  have there : Delivered (World.run setting (new setting disk jobs artifacts) (early ++ (former ++ between))).jobs
      artifact := by
    rw [← List.append_assoc] at all fresh ⊢
    exact (lasts_run provided stamps confined begunFormer (fun move member => all move (List.mem_append_left _ member))
      fresh.left delivered).1
  have lasts := (lasts_run provided stamps confined begunMiddle all fresh there).2
  rwa [List.append_assoc] at lasts

/-- What one look finds precedes what another one finds that begins when the first has ended. -/
theorem Found.precedes (provided : Provided storage jobs artifacts disk) (stamps : setting.Stamps)
    (confined : ∀ data, storage = .file data → setting.Confined data)
    (begun : Begun (Happened setting (new setting disk jobs artifacts) early) jobs.records report
      (run setting (new setting disk jobs artifacts) early))
    (ordinaryEarly : ∀ move ∈ early, move.IsOrdinary) (ordinary : ∀ move ∈ moves ++ more, move.IsOrdinary)
    (fresh : Fresh jobs.records (early ++ (moves ++ more)))
    (established : ((run setting (new setting disk jobs artifacts) early).view id).Established)
    (former : Found setting (run setting (new setting disk jobs artifacts) early) moves id found)
    (latter : Found setting (run setting (new setting disk jobs artifacts) (early ++ moves)) more id shown) :
    ∃ before after, found = some before ∧ shown = some after ∧ before.Precedes after ∧ before.IsWhole ∧
      after.IsWhole := by
  obtain ⟨one, two, three, four, rfl, finds⟩ := former
  obtain ⟨next, another, last, rest, rfl, seen⟩ := latter
  rw [← run_append, ← run_append, ← run_append] at finds seen
  simp only [List.append_assoc] at finds seen ordinary fresh
  obtain ⟨whole, shape⟩ : ∃ whole, whole = one ++ (two ++ (three ++ (four ++ (next ++ (another ++ (last ++ rest)))))) :=
    ⟨_, rfl⟩
  rw [← shape] at ordinary fresh
  have within {some : List Move} (inside : some <+: whole) (move : Move) (member : move ∈ some) : move.IsOrdinary :=
    ordinary move (inside.subset member)
  have onward {former latter : List Move} (order : former <+: latter) (inside : latter <+: whole) :=
    begun.later_of_prefix established (within inside) order
  -- The worlds of the reads follow one another: the first look has read all before the second one begins.
  have upToOne : one <+: whole := by simp [shape]
  have upToTwo : one ++ two <+: whole := by simp [shape]
  have upToNext : one ++ (two ++ (three ++ (four ++ next))) <+: whole := by simp [shape]
  have upToAnother : one ++ (two ++ (three ++ (four ++ (next ++ another)))) <+: whole := by simp [shape]
  have upToLast : one ++ (two ++ (three ++ (four ++ (next ++ (another ++ last))))) <+: whole := by simp [shape]
  refine finds.precedes seen (onward (List.prefix_refl _) upToTwo).1 (onward (by simp) upToTwo).2
    (onward (by simp) upToNext).2 (onward (by simp) upToAnother).2 (onward (by simp) upToAnother).2
    (fun entry => begun.low (within upToOne)) (fun entry => begun.low (within upToNext)) fun artifact delivered => ?_
  obtain ⟨beyond, rfl⟩ := upToLast
  rw [← List.append_assoc] at fresh
  exact begun.lasts_of_prefix provided stamps confined ordinaryEarly
    (fun move member => ordinary move (List.mem_append_left _ member)) fresh.left (by simp) (by simp) delivered

/-- What a look finds of an established job is a whole status. -/
theorem Found.status (begun : Begun (Happened setting start early) first report (run setting start early))
    (established : ((run setting start early).view id).Established) (ordinary : ∀ move ∈ moves, move.IsOrdinary)
    (here : Found setting (run setting start early) moves id found) : ∃ status, found = some status ∧ status.IsWhole := by
  obtain ⟨one, two, three, four, rfl, finds⟩ := here
  rw [← run_append, ← run_append, ← run_append, ← List.append_assoc, ← List.append_assoc] at finds
  have ordinaryOne (move : Move) (member : move ∈ one) : move.IsOrdinary := ordinary move (by simp [member])
  have ordinaryTwo (move : Move) (member : move ∈ one ++ two) : move.IsOrdinary :=
    ordinary move (List.mem_append_left _ (List.mem_append_left _ member))
  have there := (begun.later ordinaryTwo established).1
  obtain ⟨record, stands⟩ := Option.ne_none_iff_exists'.mp there.stored
  obtain ⟨status, same, whole, _⟩ := finds.status (by rw [List.append_assoc]; exact stands)
    fun entry => begun.low ordinaryOne
  exact ⟨status, same, whole⟩

/-- A look that a client calls for finds what it is answered with in the moves up to its answer. -/
theorem found_of_told (begun : Begun (Happened setting start early) first report (run setting start early))
    (ordinary : ∀ move ∈ moves ++ .call (.status id) :: more, move.IsOrdinary)
    (told : .answered (run setting (run setting start early) moves).nextTask (.status (.ok found)) ∈
      (run setting (run setting start early) (moves ++ .call (.status id) :: more)).history) :
    Found setting (run setting start (early ++ moves)) (.call (.status id) :: more) id found := by
  have called : moves ++ .call (.status id) :: more = moves ++ [.call (.status id)] ++ more := by simp
  have asked : Asked setting (run setting start (early ++ moves ++ [.call (.status id)])) more id
      (run setting start (early ++ moves)).nextTask :=
    asked_run (begun.run fun move member => ordinary move (List.mem_append_left _ member))
      fun move member => ordinary move (by simp [member])
  rw [run_append] at asked
  have here : Found setting (run setting (run setting start (early ++ moves)) [.call (.status id)]) more id found := by
    refine asked.told found ?_
    rw [called, run_append, run_append, ← run_append setting start] at told
    exact told
  exact here.after

/-- The answers about an established job are statuses that are found and whole, and each precedes all later ones. -/
theorem Polls.statuses (provided : Provided storage jobs artifacts disk) (stamps : setting.Stamps)
    (confined : ∀ data, storage = .file data → setting.Confined data)
    (begun : Begun (Happened setting (new setting disk jobs artifacts) early) jobs.records report
      (World.run setting (new setting disk jobs artifacts) early))
    (established : ((World.run setting (new setting disk jobs artifacts) early).view id).Established)
    (ordinaryEarly : ∀ move ∈ early, move.IsOrdinary)
    (polls : Polls setting (World.run setting (new setting disk jobs artifacts) early) id moves answers)
    (ordinary : ∀ move ∈ moves, move.IsOrdinary) (fresh : Fresh jobs.records (early ++ moves)) :
    ∃ statuses : List JobStatus, answers = statuses.map some ∧ statuses.Pairwise JobStatus.Precedes ∧
      ∀ status ∈ statuses, status.IsWhole ∧
        Found setting (World.run setting (new setting disk jobs artifacts) early) moves id (some status) := by
  induction polls with
  | begin => exact ⟨[], by simp⟩
  | @wait moves answers polls more inductionHypothesis =>
    rw [← List.append_assoc] at fresh
    obtain ⟨statuses, same, ordered, all⟩ :=
      inductionHypothesis (fun move member => ordinary move (List.mem_append_left _ member)) fresh.left
    exact ⟨statuses, same, ordered, fun status member => (all status member).imp_right (·.more more)⟩
  | @look moves more answers result polls told inductionHypothesis =>
    have ordinaryMoves (move : Move) (member : move ∈ moves) : move.IsOrdinary :=
      ordinary move (List.mem_append_left _ member)
    have before := fresh
    rw [← List.append_assoc] at before
    obtain ⟨statuses, rfl, ordered, all⟩ := inductionHypothesis ordinaryMoves before.left
    have longer (status : JobStatus) (member : status ∈ statuses) :
        Found setting (World.run setting (new setting disk jobs artifacts) early) (moves ++ .call (.status id) :: more)
          id (some status) := (all status member).2.more _
    cases result with
    | error error => exact ⟨statuses, by simp [Except.toOption], ordered, fun status member => ⟨(all status member).1, longer status member⟩⟩
    | ok shown =>
      have finds := found_of_told begun ordinary told
      have here : Found setting (World.run setting (new setting disk jobs artifacts) early)
          (moves ++ .call (.status id) :: more) id shown := by
        rw [run_append] at finds
        exact finds.after
      obtain ⟨status, rfl, whole⟩ := here.status begun established ordinary
      refine ⟨statuses ++ [status], by simp [Except.toOption], ?_, ?_⟩
      · refine List.pairwise_append.mpr ⟨ordered, List.pairwise_singleton _ _, fun former member latter last => ?_⟩
        rw [List.mem_singleton.mp last]
        obtain ⟨_, _, same, alike, precedes, _⟩ := (all former member).2.precedes provided stamps confined begun
          ordinaryEarly ordinary fresh established finds
        rw [Option.some.inj same, Option.some.inj alike]
        exact precedes
      · intro other member
        rcases List.mem_append.mp member with old | new
        · exact ⟨(all other old).1, longer other old⟩
        · rw [List.mem_singleton.mp new]
          exact ⟨whole, here⟩

/-- The answers that a client gets about a job, which the store knew before the start or whose submission has been
answered, are statuses of which each precedes all later ones, and which show full progress just when they are final. -/
theorem polls_only_forward (keyed : jobs.Keyed) (provided : Provided storage jobs artifacts disk)
    (stamps : setting.Stamps) (confined : ∀ data, storage = .file data → setting.Confined data)
    {steps : List (Nat × Chance)}
    (started : .answered 0 (.started (.ok report)) ∈
      (run setting (new setting disk jobs artifacts) (startup steps)).history)
    (ordinary : ∀ move ∈ early ++ moves, move.IsOrdinary)
    (fresh : Fresh jobs.records (startup steps ++ early ++ moves))
    (known : Table.get? id jobs.records ≠ none ∨ ∃ number, .answered number (.submitted (.ok id)) ∈
      (run setting (new setting disk jobs artifacts) (startup steps ++ early)).history)
    (polls : Polls setting (run setting (new setting disk jobs artifacts) (startup steps ++ early)) id moves answers) :
    ∃ statuses : List JobStatus, answers = statuses.map some ∧ statuses.Pairwise JobStatus.Precedes ∧
      ∀ status ∈ statuses, status.IsWhole := by
  have begun := (begun_of_started keyed started).run fun move member => ordinary move (List.mem_append_left _ member)
  have established : ((run setting (new setting disk jobs artifacts) (startup steps ++ early)).view id).Established :=
    begun.serves.recorded id (known.imp_right accepted_pos_iff.mpr)
  have ordinaryEarly (move : Move) (member : move ∈ startup steps ++ early) : move.IsOrdinary := by
    rcases List.mem_append.mp member with first | second
    · exact ordinary_startup steps move first
    · exact ordinary move (List.mem_append_left _ second)
  obtain ⟨statuses, same, ordered, all⟩ := polls.statuses provided stamps confined begun established ordinaryEarly
    (fun move member => ordinary move (List.mem_append_right _ member)) fresh
  exact ⟨statuses, same, ordered, fun status member => (all status member).1⟩

/-- This record waits for a start, but has no source to be compiled. -/
def blankRecord : JobRecord :=
  { id := "first", kind := .evm, status := .queued, sourceHash := "",
    createdAt := .sample
    input := { source := "", contractName := "Token" } }

/-- This world has one job that waits and has no source. -/
def oneBlank : World :=
  new .scripted .empty (.memory [("first", blankRecord)]) (.memory [])

/-- These are steps of one task, each with a name of its own. -/
def namedSteps (number : Nat) (names : List String) : List (Nat × Chance) :=
  names.map fun name => (number, ⟨blankRecord.createdAt, name, none⟩)

/-- These are the steps of a start that requeues the job. -/
def requeueingBlank : List (Nat × Chance) :=
  namedSteps 0 ["a", "b", "c", "d", "e", "f", "g", "h", "i", "j"]

/-- This function gives the moves that take some steps of one task. -/
def stepping (number : Nat) (names : List String) : List Move :=
  (namedSteps number names).map fun step => .step step.1 step.2

/-- This is the world in which the job has been offered to the workers. -/
def offeredBlank : World :=
  run .scripted oneBlank (startup requeueingBlank ++ stepping 1 ["k"])

/-- A client looks at the job before it is started. -/
def watchedWaiting : List Move :=
  [] ++ .call (.status "first") :: stepping 6 ["l", "m"]

/-- A client looks at the job once more while it runs. -/
def watchedRunning : List Move :=
  watchedWaiting ++ stepping 2 ["n", "o"] ++ .call (.status "first") :: stepping 7 ["p", "q"]

/-- A client looks at the job a last time when it has failed. -/
def watchedFailed : List Move :=
  watchedRunning ++ stepping 2 ["r", "s", "t"] ++ .call (.status "first") :: stepping 8 ["u", "v"]

/-- These are the statuses that the client is shown. -/
def watchedStatuses : List JobStatus :=
  [{ id := "first", state := .pending, progress := 0 }, { id := "first", state := .processing, progress := 0 },
    { id := "first", state := .failed, progress := 100, error := some ⟨.emptySource, "empty source", none⟩ }]

/-- These events are seen while the client looks. -/
def watchedEvents : List Event :=
  [.called 0 .start, .answered 0 (.started (.ok ⟨[], ["first"], 0⟩)), .called 6 (.status "first"),
    .answered 6 (.status (.ok watchedStatuses[0])), .called 7 (.status "first"),
    .answered 7 (.status (.ok watchedStatuses[1])), .called 8 (.status "first"),
    .answered 8 (.status (.ok watchedStatuses[2]))]

theorem Polls.seen (polls : Polls setting base id moves answers) {number : Nat} {longer : List Move}
    (counted : (World.run setting base moves).nextTask = number) (shape : longer = moves ++ .call (.status id) :: more)
    (told : .answered number (.status (.ok shown)) ∈ (World.run setting base longer).history) :
    Polls setting base id longer (answers ++ [shown]) := by
  subst counted shape
  exact .look polls told

theorem polls_watchedFailed : Polls .scripted offeredBlank "first" watchedFailed (watchedStatuses.map some) := by
  have waiting : (run .scripted offeredBlank watchedWaiting).history = watchedEvents.take 4 := by
    with_unfolding_all rfl
  have running : (run .scripted offeredBlank watchedRunning).history = watchedEvents.take 6 := by
    with_unfolding_all rfl
  have failed : (run .scripted offeredBlank watchedFailed).history = watchedEvents := by
    with_unfolding_all rfl
  have atFirst : (run .scripted offeredBlank []).nextTask = 6 := by with_unfolding_all rfl
  have atSecond : (run .scripted offeredBlank (watchedWaiting ++ stepping 2 ["n", "o"])).nextTask = 7 := by
    with_unfolding_all rfl
  have atThird : (run .scripted offeredBlank (watchedRunning ++ stepping 2 ["r", "s", "t"])).nextTask = 8 := by
    with_unfolding_all rfl
  have first : Polls .scripted offeredBlank "first" watchedWaiting [watchedStatuses[0]] :=
    Polls.begin.seen atFirst rfl (by simp [waiting, watchedEvents])
  have second : Polls .scripted offeredBlank "first" watchedRunning [watchedStatuses[0], watchedStatuses[1]] :=
    (first.wait (stepping 2 ["n", "o"])).seen atSecond rfl (by simp [running, watchedEvents])
  exact (second.wait (stepping 2 ["r", "s", "t"])).seen atThird rfl
    (by simp [failed, watchedEvents, watchedStatuses])

theorem polls_only_forward_watchedFailed : Polls .scripted offeredBlank "first" watchedFailed
      (watchedStatuses.map some) ∧ watchedStatuses.Pairwise JobStatus.Precedes := by
  have begins : (run .scripted oneBlank (startup requeueingBlank)).history =
      [.called 0 .start, .answered 0 (.started (.ok ⟨[], ["first"], 0⟩))] := by with_unfolding_all rfl
  have started : .answered 0 (.started (.ok ⟨[], ["first"], 0⟩)) ∈
      (run .scripted oneBlank (startup requeueingBlank)).history := by simp [begins]
  have ordinary : ∀ move ∈ stepping 1 ["k"] ++ watchedFailed, move.IsOrdinary := by
    simp [stepping, namedSteps, watchedFailed, watchedRunning, watchedWaiting, Move.IsOrdinary]
  have fresh : Fresh (JobStore.memory [("first", blankRecord)]).records
      (startup requeueingBlank ++ stepping 1 ["k"] ++ watchedFailed) := by
    have names : (startup requeueingBlank ++ stepping 1 ["k"] ++ watchedFailed).filterMap Move.name? =
      ["a", "b", "c", "d", "e", "f", "g", "h", "i", "j", "k", "l", "m", "n", "o", "p", "q", "r", "s", "t", "u", "v"] :=
      rfl
    refine ⟨?_, ?_, ?_⟩
    · rw [names]
      decide
    · rw [names]
      decide
    · rintro name _ ⟨id, record, found, named⟩
      obtain ⟨_, rfl⟩ := Table.eq_of_get?_singleton found
      exact absurd named (by simp [blankRecord])
  have known : Table.get? "first" (JobStore.memory [("first", blankRecord)]).records ≠ none := by
    simp [JobStore.records, Table.get?]
  obtain ⟨statuses, same, ordered, _⟩ := polls_only_forward (JobStore.keyed_singleton blankRecord) .memory
    Setting.scripted_confined.stamped (fun data file => by simp at file) started ordinary fresh (.inl known)
    polls_watchedFailed
  have alike : watchedStatuses = statuses := List.map_injective_iff.mpr (Option.some_injective _) same
  exact ⟨polls_watchedFailed, alike ▸ ordered⟩

end ContractWorks.World
