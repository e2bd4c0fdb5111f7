import ContractWorks.Proofs.Storage.Spare

namespace ContractWorks

namespace Disk

variable {disk next third : Disk} {top : Place} {name : FileName} {gone : List FileName}

/-- A disk is swept when some directories right below a place are gone with all that was in them, and nothing else. -/
structure Swept (top : Place) (gone : List FileName) (disk next : Disk) : Prop where
  nodup : gone.Nodup
  stood : ∀ name ∈ gone, disk.at? (top ++ [name]) = some .directory
  removed : ∀ name ∈ gone, ∀ place, top ++ [name] <+: place → next.at? place = none
  others : ∀ place, (∀ name ∈ gone, ¬top ++ [name] <+: place) → next.at? place = disk.at? place

theorem Swept.refl (top : Place) (disk : Disk) : Swept top [] disk disk where
  nodup := List.nodup_nil
  stood name member := by simp at member
  removed name member := by simp at member
  others _ _ := rfl

/-- Nothing is left of a directory that has been removed. -/
theorem removeTree_removes {path : String} (removed : disk.removeTree path = .ok next) (below : Path.place path ≠ [])
    {place : Place} (inside : Path.place path <+: place) : next.at? place = none := by
  rw [removeTree] at removed
  cases standing : disk.find path with
  | error error => simp [standing, bind, Except.bind] at removed
  | ok found =>
    obtain ⟨_, here, _⟩ := find_place standing
    obtain ⟨found, entry⟩ := found
    obtain rfl := here
    simp only [standing, bind, Except.bind] at removed
    cases entry with
    | file content => simp [throw, throwThe, MonadExceptOf.throw] at removed
    | directory =>
      have lower : place ≠ [] := by
        rintro rfl
        exact below (List.prefix_nil.mp inside)
      have dropped : (!(Path.place path).isPrefixOf place) = false := by
        rw [List.isPrefixOf_iff_prefix.mpr inside]
        rfl
      rw [← Except.ok.inj removed, at?_of_ne _ lower, Table.get?_filter false fun _ => dropped]
      rfl

/-- Two names right below a place lead to different places. -/
theorem name_eq_of_inside {other : FileName} {place : Place} (first : top ++ [name] <+: place)
    (second : top ++ [other] <+: place) : name = other := by
  obtain ⟨rest, rfl⟩ := first
  obtain ⟨more, same⟩ := second
  rw [List.append_assoc, List.append_assoc] at same
  exact ((List.cons.inj (List.append_cancel_left same)).1).symm

/-- A sweep goes on when it removes one more directory. -/
theorem Swept.remove (swept : Swept top gone disk next) {path : String} (here : Path.place path = top ++ [name])
    (stands : next.at? (top ++ [name]) = some .directory) (removed : next.removeTree path = .ok third) :
    Swept top (gone ++ [name]) disk third := by
  have below : Path.place path ≠ [] := by simp [here]
  have outside {place : Place} (apart : ¬top ++ [name] <+: place) : third.at? place = next.at? place :=
    removeTree_eq_ok removed place (here ▸ apart)
  have fresh : name ∉ gone := by
    intro member
    rw [swept.removed name member _ (List.prefix_refl _)] at stands
    simp at stands
  refine ⟨?_, fun other member => ?_, fun other member place inside => ?_, fun place apart => ?_⟩
  · rw [List.nodup_append]
    refine ⟨swept.nodup, by simp, ?_⟩
    rintro other member _ last rfl
    exact fresh (List.mem_singleton.mp last ▸ member)
  · rcases List.mem_append.mp member with before | now
    · exact swept.stood other before
    · obtain rfl := List.mem_singleton.mp now
      rw [← stands]
      refine (swept.others _ fun earlier held within => ?_).symm
      exact fresh (name_eq_of_inside within (List.prefix_refl _) ▸ held)
  · rcases List.mem_append.mp member with before | now
    · by_cases same : top ++ [name] <+: place
      · exact absurd (name_eq_of_inside inside same ▸ before) fresh
      · rw [outside same]
        exact swept.removed other before place inside
    · obtain rfl := List.mem_singleton.mp now
      exact removeTree_removes removed below (here ▸ inside)
  · rw [outside (apart name (by simp))]
    exact swept.others place fun other member => apart other (by simp [member])

end Disk

namespace Workspace

open Disk (Swept)

variable {config : WorkspaceConfig} {disk : Disk} {gone : List FileName}

theorem stands_of_isDirectory {path : String} (stands : disk.isDirectory path = true) :
    disk.at? (Path.place path) = some .directory := by
  rw [Disk.isDirectory] at stands
  split at stands
  · next found =>
    obtain ⟨_, _, here⟩ := Disk.find_place found
    exact here
  · simp at stands

/-- A step of a sweep removes a directory whose name has the prefix and counts it, or leaves all as it is. -/
theorem sweepOne_swept {state : Disk × Nat} (swept : Swept (Path.place config.root) gone disk state.1)
    (counted : state.2 = gone.length) (name : FileName) :
    ∃ more : List FileName, (∀ other ∈ more, Text.startsWith other.text config.namePrefix = true) ∧
      Swept (Path.place config.root) (gone ++ more) disk (sweepOne config state name.text).1 ∧
        (sweepOne config state name.text).2 = (gone ++ more).length := by
  have stay : ∃ more : List FileName, (∀ other ∈ more, Text.startsWith other.text config.namePrefix = true) ∧
      Swept (Path.place config.root) (gone ++ more) disk state.1 ∧ state.2 = (gone ++ more).length :=
    ⟨[], by simp, by rwa [List.append_nil], by rwa [List.append_nil]⟩
  rw [sweepOne]
  split
  · next chosen =>
    obtain ⟨starts, stands⟩ := Bool.and_eq_true_iff.mp chosen
    have here : Path.place (Path.join config.root name.text) = Path.place config.root ++ [name] :=
      Path.place_join_text config.root name
    split
    · next removed =>
      have there := here ▸ stands_of_isDirectory stands
      refine ⟨[name], fun other member => List.mem_singleton.mp member ▸ starts, swept.remove here there removed, ?_⟩
      rw [List.length_append, counted]
      rfl
    · exact stay
  · exact stay

/-- A sweep removes some directories right below the root whose names have the prefix, and counts them. -/
theorem foldl_sweepOne_swept (names : List String) : (∀ text ∈ names, ∃ name : FileName, name.text = text) →
    ∀ {state : Disk × Nat} {gone : List FileName}, Swept (Path.place config.root) gone disk state.1 →
      state.2 = gone.length → (∀ other ∈ gone, Text.startsWith other.text config.namePrefix = true) →
        ∃ all : List FileName, (∀ other ∈ all, Text.startsWith other.text config.namePrefix = true) ∧
          Swept (Path.place config.root) all disk (names.foldl (sweepOne config) state).1 ∧
            (names.foldl (sweepOne config) state).2 = all.length := by
  induction names with
  | nil => exact fun _ state gone swept counted named => ⟨gone, named, swept, counted⟩
  | cons text names inductionHypothesis =>
    intro proper state gone swept counted named
    obtain ⟨name, rfl⟩ := proper text List.mem_cons_self
    obtain ⟨more, starts, further, together⟩ := sweepOne_swept swept counted name
    refine inductionHypothesis (fun text member => proper text (List.mem_cons_of_mem _ member)) further together ?_
    intro other member
    exact (List.mem_append.mp member).elim (named other) (starts other)

/-- A sweep counts just the directories that it removes. They stood right below the root, and their names have the
prefix. A sweep that fails removes nothing. -/
theorem sweep_swept (config : WorkspaceConfig) (disk : Disk) :
    ∃ gone : List FileName, (∀ name ∈ gone, Text.startsWith name.text config.namePrefix = true) ∧
      Swept (Path.place config.root) gone disk (sweep config disk).1 ∧
        ((sweep config disk).2 = .ok gone.length ∨ (gone = [] ∧ ∃ error, (sweep config disk).2 = .error error)) := by
  rw [sweep]
  split
  · exact ⟨[], by simp, .refl _ disk, .inl rfl⟩
  · exact ⟨[], by simp, .refl _ disk, .inr ⟨rfl, _, rfl⟩⟩
  · next names listed =>
    have proper (text : String) (member : text ∈ names) : ∃ name : FileName, name.text = text := by
      obtain ⟨name, named, _⟩ := (Disk.mem_list listed text).mp member
      exact ⟨name, named⟩
    have none : ∀ other ∈ ([] : List FileName), Text.startsWith other.text config.namePrefix = true := by simp
    obtain ⟨all, starts, swept, counted⟩ := foldl_sweepOne_swept names proper
      (show Swept (Path.place config.root) [] disk ((disk, 0) : Disk × Nat).1 from .refl _ disk) rfl none
    exact ⟨all, starts, swept, .inl (congrArg Except.ok counted)⟩

end Workspace

end ContractWorks
