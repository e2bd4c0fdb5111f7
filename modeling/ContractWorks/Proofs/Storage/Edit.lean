import ContractWorks.Proofs.Storage.Disk

namespace ContractWorks

namespace Table

variable {κ ν μ : Type} [DecidableEq κ]

/-- This function changes the values of a table, each as its key says. -/
def mapValues (change : κ → ν → μ) (table : Table κ ν) : Table κ μ :=
  table.map fun entry => (entry.1, change entry.1 entry.2)

variable (change : κ → ν → μ) (key : κ) (value : ν) (table : Table κ ν)

@[simp] theorem get?_mapValues : get? key (mapValues change table) = (get? key table).map (change key) := by
  induction table with
  | nil => rfl
  | cons entry rest inductionHypothesis =>
    obtain ⟨other, there⟩ := entry
    rw [mapValues, List.map_cons, get?, get?]
    split
    · next same => rw [same, Option.map_some]
    · exact inductionHypothesis

theorem insert_mapValues :
    insert key (change key value) (mapValues change table) = mapValues change (insert key value table) := by
  induction table with
  | nil => rfl
  | cons entry rest inductionHypothesis =>
    obtain ⟨other, there⟩ := entry
    rw [mapValues, List.map_cons, insert, insert]
    split
    · rfl
    · rw [mapValues, List.map_cons]
      exact congrArg _ inductionHypothesis

theorem erase_mapValues : erase key (mapValues change table) = mapValues change (erase key table) := by
  induction table with
  | nil => rfl
  | cons entry rest inductionHypothesis =>
    obtain ⟨other, there⟩ := entry
    rw [mapValues, List.map_cons, erase, erase]
    split
    · exact inductionHypothesis
    · rw [mapValues, List.map_cons]
      exact congrArg _ inductionHypothesis

omit [DecidableEq κ] in
theorem mapValues_mapValues {change : κ → ν → ν}
    (twice : ∀ key value, change key (change key value) = change key value) :
    mapValues change (mapValues change table) = mapValues change table := by
  rw [mapValues, mapValues, List.map_map]
  exact List.map_congr_left fun entry _ => by simp [twice]

omit [DecidableEq κ] in
theorem filter_mapValues (keep : κ → Bool) :
    (mapValues change table).filter (fun entry => keep entry.1) =
      mapValues change (table.filter fun entry => keep entry.1) := by
  rw [mapValues, mapValues, List.filter_map]
  rfl

end Table

/-- This function changes the content of a file. -/
def DiskEntry.edited (edit : ByteArray → ByteArray) : DiskEntry → DiskEntry
  | .directory => .directory
  | .file content => .file (edit content)

namespace Disk

/-- This function changes the contents of all files, each as its place says. -/
def edited (edit : Place → ByteArray → ByteArray) (disk : Disk) : Disk :=
  ⟨Table.mapValues (fun place entry => entry.edited (edit place)) disk.entries⟩

variable (edit : Place → ByteArray → ByteArray) (disk : Disk) (path : String)

/-- An edit that changes nothing the second time may be made twice. -/
theorem edited_edited {edit : Place → ByteArray → ByteArray}
    (twice : ∀ place content, edit place (edit place content) = edit place content) :
    (disk.edited edit).edited edit = disk.edited edit := by
  refine congrArg Disk.mk (Table.mapValues_mapValues _ fun place entry => ?_)
  cases entry with
  | directory => rfl
  | file content => exact congrArg DiskEntry.file (twice place content)

theorem insert_edited (place : Place) (entry : DiskEntry) :
    (⟨Table.insert place (entry.edited (edit place)) (disk.edited edit).entries⟩ : Disk) =
      edited edit ⟨Table.insert place entry disk.entries⟩ :=
  congrArg Disk.mk (Table.insert_mapValues (fun place entry => entry.edited (edit place)) place entry disk.entries)

@[simp] theorem at?_edited (place : Place) :
    (disk.edited edit).at? place = (disk.at? place).map (DiskEntry.edited (edit place)) := by
  rw [at?, at?]
  split
  · rfl
  · rw [edited, Table.get?_mapValues]

/-- An edit does not change the way to any place. -/
@[simp] theorem walk_edited (place : Place) (parts : List PathPart) :
    (disk.edited edit).walk place parts = disk.walk place parts := by
  induction parts generalizing place with
  | nil => rw [walk, walk]
  | cons part rest inductionHypothesis =>
    rw [walk.eq_def, walk.eq_def disk]
    dsimp only
    rw [at?_edited]
    cases disk.at? place with
    | none => rfl
    | some entry =>
      cases entry with
      | file content => rfl
      | directory =>
        cases part with
        | up => exact inductionHypothesis _
        | into name => simp only [Option.map_some, DiskEntry.edited, inductionHypothesis]

@[simp] theorem resolve_edited : (disk.edited edit).resolve path = disk.resolve path := by
  simp only [resolve, walk_edited]

@[simp] theorem find_edited : (disk.edited edit).find path =
    (disk.find path).map fun found => (found.1, found.2.edited (edit found.1)) := by
  rw [find, find, resolve_edited]
  cases disk.resolve path with
  | error error => rfl
  | ok place =>
    simp only [bind, Except.bind, at?_edited]
    cases disk.at? place <;> rfl

@[simp] theorem isDirectory_edited : (disk.edited edit).isDirectory path = disk.isDirectory path := by
  rw [isDirectory, isDirectory, find_edited]
  cases disk.find path with
  | error error => rfl
  | ok found =>
    obtain ⟨place, entry⟩ := found
    cases entry <;> rfl

@[simp] theorem list_edited : (disk.edited edit).list path = disk.list path := by
  rw [list, list, find_edited]
  cases disk.find path with
  | error error => rfl
  | ok found =>
    obtain ⟨place, entry⟩ := found
    cases entry with
    | file content => rfl
    | directory =>
      simp only [bind, Except.bind, Except.map, DiskEntry.edited, edited, Table.mapValues, List.filterMap_map]
      rfl

/-- A file that is read is edited as its place says. -/
theorem read_edited : (disk.edited edit).read path = (disk.read path).map (edit (Path.place path)) := by
  rw [read, read, find_edited]
  cases standing : disk.find path with
  | error error => rfl
  | ok found =>
    have place := (find_place standing).2.1
    obtain ⟨_, entry⟩ := found
    obtain rfl := place
    cases entry <;> rfl

/-- A file that is written as its place says is one that was written and then edited. -/
theorem write_edited (content : ByteArray) :
    (disk.edited edit).write path (edit (Path.place path) content) =
      (disk.write path content).map (edited edit) := by
  have inserted := congrArg (@Except.ok DiskError Disk) (insert_edited edit disk (Path.place path) (.file content))
  rw [write, write, resolve_edited]
  cases resolved : disk.resolve path with
  | error error => rfl
  | ok place =>
    obtain rfl := resolve_place resolved
    simp only [bind, Except.bind, at?_edited]
    cases disk.at? (Path.place path) with
    | some entry =>
      cases entry with
      | directory => rfl
      | file old => exact inserted
    | none =>
      cases disk.at? (Path.place path).dropLast with
      | none => rfl
      | some entry =>
        cases entry with
        | directory => exact inserted
        | file old => rfl

theorem makeAlong_edited (parts : List PathPart) : ∀ (disk : Disk) (place : Place),
    (disk.edited edit).makeAlong place parts = (disk.makeAlong place parts).map (edited edit) := by
  induction parts with
  | nil => exact fun _ _ => rfl
  | cons part rest inductionHypothesis =>
    intro disk place
    cases part with
    | up =>
      rw [makeAlong, makeAlong]
      exact inductionHypothesis disk _
    | into name =>
      have inserted := insert_edited edit disk (place ++ [name]) .directory
      rw [DiskEntry.edited] at inserted
      rw [makeAlong, makeAlong]
      dsimp only
      rw [at?_edited]
      split
      · cases disk.at? (place ++ [name]) with
        | none =>
          dsimp only [Option.map_none]
          rw [inserted]
          exact inductionHypothesis _ _
        | some entry =>
          cases entry with
          | directory => exact inductionHypothesis _ _
          | file old => rfl
      · rfl

@[simp] theorem makeDirectories_edited :
    (disk.edited edit).makeDirectories path = (disk.makeDirectories path).map (edited edit) := by
  rw [makeDirectories, makeDirectories]
  cases partsOf path with
  | error error => rfl
  | ok parts => exact makeAlong_edited edit parts disk []

@[simp] theorem makeDirectory_edited :
    (disk.edited edit).makeDirectory path = (disk.makeDirectory path).map (edited edit) := by
  rw [makeDirectory, makeDirectory, resolve_edited]
  cases disk.resolve path with
  | error error => rfl
  | ok place =>
    simp only [bind, Except.bind, at?_edited]
    cases disk.at? place with
    | some entry => rfl
    | none =>
      cases disk.at? place.dropLast with
      | none => rfl
      | some entry =>
        cases entry with
        | directory => exact congrArg Except.ok (insert_edited edit disk place .directory)
        | file old => rfl

@[simp] theorem removeTree_edited :
    (disk.edited edit).removeTree path = (disk.removeTree path).map (edited edit) := by
  rw [removeTree, removeTree, find_edited]
  cases disk.find path with
  | error error => rfl
  | ok found =>
    obtain ⟨place, entry⟩ := found
    cases entry with
    | file content => rfl
    | directory =>
      exact congrArg (fun entries => Except.ok (Disk.mk entries))
        (Table.filter_mapValues (fun place entry => DiskEntry.edited (edit place) entry) disk.entries fun other =>
          !place.isPrefixOf other)

/-- A file may be moved before or after an edit that is the same at both places. -/
theorem rename_edited (target : String) (same : edit (Path.place path) = edit (Path.place target)) :
    (disk.edited edit).rename path target = (disk.rename path target).map (edited edit) := by
  rw [rename, rename, find_edited]
  cases standing : disk.find path with
  | error error => rfl
  | ok found =>
    have place := (find_place standing).2.1
    obtain ⟨_, entry⟩ := found
    obtain rfl := place
    cases entry with
    | directory => rfl
    | file content =>
      have written := write_edited edit disk target content
      simp only [bind, Except.bind, Except.map, DiskEntry.edited, same]
      rw [written]
      cases disk.write target content with
      | error error => rfl
      | ok next =>
        simp only [Except.map, resolve_edited]
        cases next.resolve target with
        | error error => rfl
        | ok there =>
          dsimp only
          split
          · rfl
          · exact congrArg (fun entries => Except.ok (Disk.mk entries))
              (Table.erase_mapValues (fun place entry => DiskEntry.edited (edit place) entry) (Path.place path)
                next.entries)

end Disk

end ContractWorks
