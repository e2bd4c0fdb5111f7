import ContractWorks.Proofs.Queue.Alike
import ContractWorks.Proofs.Queue.Dealing

namespace ContractWorks

namespace Schedule

/-- Values that are found in lists whose entries correspond to each other correspond too. -/
theorem rel_findSome? {α β γ δ κ : Type} {relation : γ → δ → Prop} {first : α → κ} {second : β → κ}
    {find : α → Option γ} {search : β → Option δ} : ∀ {entries : List α} {others : List β},
      entries.map first = others.map second →
        (∀ entry ∈ entries, ∀ other ∈ others, first entry = second other →
          Option.Rel relation (find entry) (search other)) →
            Option.Rel relation (entries.findSome? find) (others.findSome? search)
  | [], [], _, _ => .none
  | [], _ :: _, same, _ => by simp at same
  | _ :: _, [], same, _ => by simp at same
  | entry :: entries, other :: others, same, each => by
    obtain ⟨head, tail⟩ := by simpa only [List.map_cons, List.cons.injEq] using same
    have here := each entry List.mem_cons_self other List.mem_cons_self head
    have later := rel_findSome? tail fun entry member other listed =>
      each entry (List.mem_cons_of_mem _ member) other (List.mem_cons_of_mem _ listed)
    rw [List.findSome?_cons, List.findSome?_cons]
    generalize find entry = found at here ⊢
    generalize search other = met at here ⊢
    cases here with
    | none => exact later
    | some related => exact .some related

variable {storage : StorageConfig} {schedule other : Schedule} {number : Nat} {task task' : Task}

@[simp] theorem methodOf_masked (task : Task) : methodOf task.masked = methodOf task := by
  rcases task with step | step | step | step | step | ids | ⟨id, awake⟩ <;> try rfl
  all_goals cases step <;> rfl

@[simp] theorem sleeps_masked (task : Task) : sleeps task.masked = sleeps task := by
  rcases task with step | step | step | step | step | ids | ⟨id, awake⟩ <;> try rfl
  all_goals cases step <;> rfl

@[simp] theorem isHeld_masked (schedule : Schedule) (task : Task) :
    schedule.isHeld task.masked = schedule.isHeld task := by
  rcases task with step | step | step | step | step | ids | ⟨id, awake⟩ <;> try rfl
  all_goals cases step <;> rfl

/-- The text of faults matters only where a fault is worded. -/
theorem callStore_faultText (schedule : Schedule) (setting : Setting) (world : World) (faultText : String)
    (method : StoreMethod) :
    ({ schedule with setting, world, faultText }.callStore method).1.map StoreFault.masked =
        (schedule.callStore method).1.map StoreFault.masked ∧
      ({ schedule with setting, world, faultText }.callStore method).2 =
        { (schedule.callStore method).2 with setting, world, faultText } := by
  rw [callStore, callStore]
  dsimp only
  cases Table.get? method schedule.faults with
  | none => exact ⟨rfl, rfl⟩
  | some count => cases count <;> exact ⟨rfl, rfl⟩

theorem chanceOf_faultText (schedule : Schedule) (setting : Setting) (world : World) (faultText : String)
    (task : Task) :
    ({ schedule with setting, world, faultText }.chanceOf task).1.masked = (schedule.chanceOf task).1.masked ∧
      ({ schedule with setting, world, faultText }.chanceOf task).2 =
        { (schedule.chanceOf task).2 with setting, world, faultText } := by
  rw [chanceOf, chanceOf]
  dsimp only [freshName, tick]
  cases methodOf task with
  | none => exact ⟨rfl, rfl⟩
  | some method =>
    obtain ⟨faults, after⟩ := callStore_faultText
      { schedule with names := schedule.names + 1, clock := schedule.clock.nextSecond } setting world faultText method
    exact ⟨congrArg (Chance.mk schedule.clock (nameOf (schedule.names + 1))) faults, after⟩

/-- Schedules are paired when they run twins in settings that are alike, and differ in nothing else but the text of
their faults. -/
structure Paired (storage : StorageConfig) (schedule other : Schedule) : Prop where
  settings : schedule.setting.Alike storage other.setting
  confined : ∀ data, storage = .file data → schedule.setting.Confined data ∧ other.setting.Confined data
  twins : World.Twins storage schedule.setting other.setting schedule.world other.world
  same : other = { schedule with setting := other.setting, world := other.world, faultText := other.faultText }

namespace Paired

theorem withWorld (paired : Paired storage schedule other) {world world' : World}
    (twins : World.Twins storage schedule.setting other.setting world world') :
    Paired storage { schedule with world } { other with world := world' } where
  settings := paired.settings
  confined := paired.confined
  twins := twins
  same := by rw [paired.same]

/-- Paired schedules give out the same names. -/
theorem freshName (paired : Paired storage schedule other) :
    other.freshName.1 = schedule.freshName.1 ∧ Paired storage schedule.freshName.2 other.freshName.2 := by
  obtain ⟨setting, world, faultText, rfl⟩ : ∃ setting world faultText,
      other = { schedule with setting, world, faultText } := ⟨_, _, _, paired.same⟩
  exact ⟨rfl, paired.settings, paired.confined, paired.twins, rfl⟩

/-- Paired schedules add alike chances to tasks that are alike. -/
theorem chance (paired : Paired storage schedule other) (tasks : task'.masked = task.masked) :
    (other.chanceOf task').1.masked = (schedule.chanceOf task).1.masked ∧
      Paired storage (schedule.chanceOf task).2 (other.chanceOf task').2 := by
  have task (schedule : Schedule) : schedule.chanceOf task' = schedule.chanceOf task := by
    rw [chanceOf, chanceOf, ← methodOf_masked task', tasks, methodOf_masked]
  obtain ⟨setting, world, faultText, rfl⟩ : ∃ setting world faultText,
      other = { schedule with setting, world, faultText } := ⟨_, _, _, paired.same⟩
  obtain ⟨chances, after⟩ := chanceOf_faultText schedule setting world faultText task'
  obtain ⟨_, same, own⟩ := chanceOf_spec schedule task'
  rw [← task]
  refine ⟨chances, ?_⟩
  rw [after]
  exact ⟨own ▸ paired.settings, own ▸ paired.confined, own ▸ same ▸ paired.twins, rfl⟩

/-- Paired schedules take the next steps of tasks that are alike. -/
theorem advance? (paired : Paired storage schedule other) (found : Table.get? number schedule.world.tasks = some task)
    (found' : Table.get? number other.world.tasks = some task') (tasks : task'.masked = task.masked) :
    Option.Rel (Paired storage) (schedule.advance? number task) (other.advance? number task') := by
  have held : other.isHeld task' = schedule.isHeld task := by
    rw [← isHeld_masked, tasks, isHeld_masked, paired.same]
    cases task <;> rfl
  obtain ⟨chances, after⟩ := paired.chance tasks
  obtain ⟨safe, _, own⟩ := chanceOf_spec schedule task
  obtain ⟨_, _, own'⟩ := chanceOf_spec other task'
  have moves : (World.Move.step number (other.chanceOf task').1).masked =
      (World.Move.step number (schedule.chanceOf task).1).masked := congrArg (World.Move.step number) chances
  have moved := paired.twins.move? paired.settings paired.confined moves fun _ chance same => by
    obtain ⟨_, rfl⟩ := World.Move.step.inj same
    exact safe
  rw [World.move?, World.move?, World.step?, World.step?, found, found'] at moved
  rw [Schedule.advance?, Schedule.advance?, held]
  split
  · exact .none
  · dsimp only at moved ⊢
    generalize World.stepTask schedule.setting schedule.world number _ task = next at moved ⊢
    generalize World.stepTask other.setting other.world number _ task' = next' at moved ⊢
    cases moved with
    | none => exact .none
    | some twins => exact .some (after.withWorld (own ▸ own' ▸ twins))

/-- Paired schedules take a step of the same first task. -/
theorem advanceFirst? (paired : Paired storage schedule other) (eligible : Task → Bool)
    (masks : ∀ task, eligible task.masked = eligible task) :
    Option.Rel (Paired storage) (schedule.advanceFirst? eligible) (other.advanceFirst? eligible) := by
  obtain ⟨shown, veiled, veiled'⟩ := paired.twins.alike
  have tasks := veiled.tasks.symm.trans veiled'.tasks
  refine rel_findSome? tasks fun entry member met listed alike => ?_
  obtain ⟨numbers, masked⟩ : entry.1 = met.1 ∧ entry.2.masked = met.2.masked := Prod.mk.inj alike
  have found := Table.get?_of_mem paired.twins.guarded.tidy.numbered.distinct member
  have found' := Table.get?_of_mem paired.twins.guarded'.tidy.numbered.distinct listed
  rw [← masks, masked, masks, numbers]
  split
  · rw [← numbers] at found' ⊢
    exact paired.advance? found found' masked.symm
  · exact .none

/-- Paired schedules settle together. -/
theorem settleFor (steps : Nat) : ∀ {schedule other : Schedule}, Paired storage schedule other →
    Paired storage (schedule.settleFor steps) (other.settleFor steps) := by
  induction steps with
  | zero => exact fun paired => paired
  | succ steps inductionHypothesis =>
    intro schedule other paired
    have awake := paired.advanceFirst? (fun task => !sleeps task) fun task => by rw [sleeps_masked]
    have asleep := paired.advanceFirst? sleeps sleeps_masked
    rw [Schedule.settleFor, Schedule.settleFor]
    generalize schedule.advanceFirst? (fun task => !sleeps task) = next at awake ⊢
    generalize other.advanceFirst? (fun task => !sleeps task) = next' at awake ⊢
    cases awake with
    | some paired => exact inductionHypothesis paired
    | none =>
      generalize schedule.advanceFirst? sleeps = next at asleep ⊢
      generalize other.advanceFirst? sleeps = next' at asleep ⊢
      cases asleep with
      | some paired => exact inductionHypothesis paired
      | none => exact paired

/-- Paired schedules finish a task together. -/
theorem finishTaskFor (steps number : Nat) : ∀ {schedule other : Schedule}, Paired storage schedule other →
    Paired storage (schedule.finishTaskFor steps number) (other.finishTaskFor steps number) := by
  induction steps with
  | zero => exact fun paired => paired
  | succ steps inductionHypothesis =>
    intro schedule other paired
    obtain ⟨shown, veiled, veiled'⟩ := paired.twins.alike
    have stands := (veiled'.get? number).symm.trans (veiled.get? number)
    rw [Schedule.finishTaskFor, Schedule.finishTaskFor]
    cases found : Table.get? number schedule.world.tasks with
    | none =>
      rw [found] at stands
      rw [Option.map_eq_none_iff.mp stands]
      exact paired
    | some task =>
      rw [found] at stands
      obtain ⟨task', found', tasks⟩ := Option.map_eq_some_iff.mp stands
      have advanced := paired.advance? found found' tasks
      rw [found']
      dsimp only
      generalize schedule.advance? number task = next at advanced ⊢
      generalize other.advance? number task' = next' at advanced ⊢
      cases advanced with
      | none => exact paired
      | some paired => exact inductionHypothesis paired

/-- Paired schedules have answered alike. -/
theorem answerOf (paired : Paired storage schedule other) (number : Nat) :
    (other.answerOf number).map Answer.masked = (schedule.answerOf number).map Answer.masked := by
  have masked (schedule : Schedule) : (schedule.answerOf number).map Answer.masked =
      { schedule with world := { schedule.world with
        history := schedule.world.history.map Event.masked } }.answerOf number := by
    rw [Schedule.answerOf, Schedule.answerOf, List.findSome?_map, List.map_findSome?]
    congr 1
    funext event
    cases event with
    | answered task answer =>
      simp only [Function.comp_apply, Event.masked]
      split <;> rfl
    | _ => rfl
  obtain ⟨shown, veiled, veiled'⟩ := paired.twins.alike
  rw [masked, masked, ← veiled.history, ← veiled'.history]
  rfl

/-- Paired schedules answer a call alike, and stay paired. -/
theorem call (paired : Paired storage schedule other) (call : Call) :
    (other.call call).1.map Answer.masked = (schedule.call call).1.map Answer.masked ∧
      Paired storage (schedule.call call).2 (other.call call).2 := by
  have number : other.world.nextTask = schedule.world.nextTask := by
    obtain ⟨shown, veiled, veiled'⟩ := paired.twins.alike
    exact veiled'.nextTask.symm.trans veiled.nextTask
  have moved : Option.Rel _ (some (World.beginCall schedule.setting schedule.world call))
      (some (World.beginCall other.setting other.world call)) :=
    paired.twins.move? paired.settings paired.confined (rfl : (World.Move.call call).masked = _)
      fun _ _ same => by simp at same
  have begun : Paired storage { schedule with world := World.beginCall schedule.setting schedule.world call }
      { other with world := World.beginCall other.setting other.world call } := by
    cases moved with
    | some twins => exact paired.withWorld twins
  have finished := begun.finishTaskFor patience schedule.world.nextTask
  rw [Schedule.call, Schedule.call, number]
  dsimp only
  generalize Schedule.finishTaskFor patience _ schedule.world.nextTask = ended at finished ⊢
  generalize Schedule.finishTaskFor patience _ schedule.world.nextTask = ended' at finished ⊢
  have answers := finished.answerOf schedule.world.nextTask
  cases told : ended.answerOf schedule.world.nextTask with
  | some answer =>
    rw [told] at answers
    obtain ⟨answer', told', same⟩ := Option.map_eq_some_iff.mp answers
    rw [told']
    exact ⟨congrArg some same, finished⟩
  | none =>
    rw [told] at answers
    rw [Option.map_eq_none_iff.mp answers]
    have settled := finished.settleFor patience
    exact ⟨settled.answerOf _, settled⟩

end Paired

end Schedule

end ContractWorks
