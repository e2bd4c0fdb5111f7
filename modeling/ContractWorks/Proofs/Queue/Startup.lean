import ContractWorks.Proofs.Queue.Phase
import Mathlib.Data.List.Induction

namespace ContractWorks.World

/-- These are the moves of a new process: it calls a start and takes steps until the start has answered. -/
def startup (steps : List (Nat × Chance)) : List Move :=
  .call .start :: steps.map fun step => .step step.1 step.2

variable {setting : Setting} {disk : Disk} {jobs : JobStore} {artifacts : ArtifactStore} {start world : World}
  {report : RecoveryReport} {first : Table JobId JobRecord} {evidence : JobId → Mark → Prop} {early late : List Move}
  {id : JobId}

theorem startup_concat (steps : List (Nat × Chance)) (number : Nat) (chance : Chance) :
    startup (steps ++ [(number, chance)]) = startup steps ++ [.step number chance] := by
  rw [startup, startup, List.map_append]
  rfl

theorem ordinary_startup (steps : List (Nat × Chance)) : ∀ move ∈ startup steps, move.IsOrdinary := by
  intro move member
  rcases List.mem_cons.mp member with rfl | step
  · trivial
  · obtain ⟨_, _, rfl⟩ := List.mem_map.mp step
    trivial

/-- A new process goes through the phases of its start. -/
theorem phase_startup (keyed : jobs.Keyed) (steps : List (Nat × Chance)) :
    Phase (Happened setting (new setting disk jobs artifacts) (startup steps)) jobs.records
      (run setting (new setting disk jobs artifacts) (startup steps)) := by
  induction steps using List.reverseRecOn with
  | nil =>
    obtain ⟨failing, entering, recovery⟩ := Recovery.start keyed
    have alone : (run setting (new setting disk jobs artifacts) (startup [])).Alone .waiting :=
      ⟨rfl, rfl, rfl, rfl, rfl, rfl, rfl⟩
    have leaves : StartStep.Leaves failing entering .waiting := trivial
    exact .recovering alone leaves recovery
  | append_singleton steps last inductionHypothesis =>
    obtain ⟨number, chance⟩ := last
    rw [startup_concat, run_concat]
    exact inductionHypothesis.proceed number chance (fun _ _ happened => happened.more _) fun _ _ => happened_now

/-- A queue that has begun stays so through a run of ordinary moves. -/
theorem Begun.run {first : Table JobId JobRecord} {early late : List Move}
    (begun : Begun (Happened setting start early) first report (World.run setting start early))
    (ordinary : ∀ move ∈ late, move.IsOrdinary) :
    Begun (Happened setting start (early ++ late)) first report (World.run setting start (early ++ late)) := by
  induction late using List.reverseRecOn with
  | nil =>
    rw [List.append_nil]
    exact begun
  | append_singleton late last inductionHypothesis =>
    have before := inductionHypothesis fun move member => ordinary move (List.mem_append_left _ member)
    rw [← List.append_assoc, run_concat]
    exact before.proceed (ordinary last (by simp)) (fun _ _ happened => happened.more _) fun _ _ => happened_now

/-- A start that has answered with a report has begun. -/
theorem begun_of_started (keyed : jobs.Keyed) {steps : List (Nat × Chance)}
    (started : .answered 0 (.started (.ok report)) ∈
      (run setting (new setting disk jobs artifacts) (startup steps)).history) :
    Begun (Happened setting (new setting disk jobs artifacts) (startup steps)) jobs.records report
      (run setting (new setting disk jobs artifacts) (startup steps)) := by
  have phase : Phase (Happened setting (new setting disk jobs artifacts) (startup steps)) jobs.records
      (run setting (new setting disk jobs artifacts) (startup steps)) := phase_startup keyed steps
  cases phase with
  | recovering alone leaves recovery => simp [alone.history] at started
  | failed text tasks history => simp [history] at started
  | launching launches => simp [launches.history] at started
  | begun begun =>
    obtain rfl := begun.answered 0 report started
    exact begun

/-- An ordinary move changes each job of a tidy world in one of the ways there are. -/
theorem Tidy.change (tidy : world.Tidy) {move : Move} (ordinary : move.IsOrdinary) (id : JobId) :
    Change (world.Reason move id) (world.view id) ((World.move setting world move).view id) := by
  rw [World.move]
  cases moved : move? setting world move with
  | none => exact .none rfl
  | some next => exact (advances_move tidy moved fun same => absurd same ordinary.ne_restart).change id

/-- What an established job looks like goes only forward through a run of ordinary moves. -/
theorem Begun.later (begun : Begun (Happened setting start early) first report (World.run setting start early))
    (ordinary : ∀ move ∈ late, move.IsOrdinary) (established : ((World.run setting start early).view id).Established) :
    ((World.run setting start (early ++ late)).view id).Established ∧
      ((World.run setting start early).view id).Later ((World.run setting start (early ++ late)).view id) := by
  induction late using List.reverseRecOn with
  | nil =>
    rw [List.append_nil]
    exact ⟨established, .refl _⟩
  | append_singleton late last inductionHypothesis =>
    have ordinaryLate (move : Move) (member : move ∈ late) : move.IsOrdinary :=
      ordinary move (List.mem_append_left _ member)
    have ordinaryLast : last.IsOrdinary := ordinary last (by simp)
    obtain ⟨stays, later⟩ := inductionHypothesis ordinaryLate
    have between := begun.run ordinaryLate
    have change : Change _ _ ((World.move setting (World.run setting start (early ++ late)) last).view id) :=
      between.serves.tidy.change ordinaryLast id
    rw [← List.append_assoc, run_concat]
    have orderly := between.serves.orderly ordinaryLast id
    exact ⟨stays.change change, later.trans ((between.serves.served id).later stays change orderly)⟩

end ContractWorks.World
