import ContractWorks.Proofs.Storage.Sweep

namespace ContractWorks

namespace Path

/-- This function gives the places that a path leads through before its last part. -/
def approach (path : String) : List Place :=
  through [] (parts path).dropLast

/-- A way from a place leads through all that is above the places on it, but for what is above its start. -/
theorem above_through (parts : List PathPart) : ∀ {start visited above : Place}, visited ∈ through start parts →
    above <+: visited → above <+: start ∨ above ∈ through start parts := by
  induction parts with
  | nil =>
    intro start visited above member inside
    obtain rfl := List.mem_singleton.mp member
    exact .inl inside
  | cons part rest inductionHypothesis =>
    intro start visited above member inside
    rcases List.mem_cons.mp member with rfl | later
    · exact .inl inside
    · rcases inductionHypothesis later inside with higher | between
      · cases part with
        | up => exact .inl (higher.trans (List.dropLast_prefix start))
        | into name =>
          rcases List.prefix_concat_iff.mp higher with rfl | before
          · refine .inr (List.mem_cons_of_mem _ ?_)
            cases rest <;> simp [through, PathPart.follow]
          · exact .inl before
      · exact .inr (List.mem_cons_of_mem _ between)

/-- A path leads through all that is above the places that it leads through. -/
theorem above_approach {path : String} {visited above : Place} (member : visited ∈ approach path)
    (inside : above <+: visited) : above ∈ approach path := by
  rcases above_through _ member inside with top | between
  · rw [List.prefix_nil.mp top, approach]
    cases (parts path).dropLast <;> simp [through]
  · exact between

end Path

namespace WorkspaceConfig

open Path (join parts partsOfChars place approach)

variable {config : WorkspaceConfig} {name other : String}

/-- The characters behind the last slash stand apart from those before it. -/
theorem exists_split (characters : List Char) : ∃ front tail, characters = front ++ tail ∧ '/' ∉ tail ∧
    (front = [] ∨ ∃ before, front = before ++ ['/']) := by
  induction characters using List.reverseRecOn with
  | nil => exact ⟨[], [], rfl, by simp, .inl rfl⟩
  | append_singleton characters last inductionHypothesis =>
    by_cases slash : last = '/'
    · subst slash
      exact ⟨characters ++ ['/'], [], by simp, by simp, .inr ⟨characters, rfl⟩⟩
    · obtain ⟨front, tail, rfl, single, closed⟩ := inductionHypothesis
      refine ⟨front, tail ++ [last], by simp, ?_, closed⟩
      simp [single, Ne.symm slash]

/-- The parts of what ends with a slash come before those of what stands behind it. -/
theorem partsOfChars_behind {front : List Char} (closed : front = [] ∨ ∃ before, front = before ++ ['/'])
    (tail : List Char) : partsOfChars (front ++ tail) = partsOfChars front ++ partsOfChars tail := by
  rcases closed with rfl | ⟨before, rfl⟩
  · have none : partsOfChars [] = [] := by decide
    rw [none, List.nil_append, List.nil_append]
  · rw [List.append_assoc, List.singleton_append, Path.partsOfChars_append, Path.partsOfChars_slash]

/-- A name behind a prefix is proper in what stands behind the last slash. -/
theorem isProper_tail {front tail : List Char} {ending : String} (single : '/' ∉ tail)
    (closed : front = [] ∨ ∃ before, front = before ++ ['/'])
    (named : Path.isProper (String.ofList (front ++ tail ++ ending.toList)) = true ∨
      ArtifactStore.isSafeId ending = true) :
    Path.isProper (String.ofList (tail ++ ending.toList)) = true := by
  rcases named with proper | safe
  · rcases closed with rfl | ⟨before, rfl⟩
    · simpa using proper
    · simp [Path.isProper] at proper
  · have plain := Path.plain_of_safe safe
    have letters := (Bool.and_eq_true_iff.mp safe).2
    obtain ⟨first, last, shape⟩ : ∃ first last, ending.toList = first ++ [last] := by
      rcases List.eq_nil_or_concat ending.toList with empty | ⟨first, last, shape⟩
      · exact absurd (String.toList_eq_nil_iff.mp empty) plain.1
      · exact ⟨first, last, by simpa using shape⟩
    have allowed := List.all_eq_true.mp letters last (by simp [shape])
    have point : last ≠ '.' := by
      rintro rfl
      exact absurd allowed (by decide)
    have differs (short : String) (dotted : short.toList.all (· = '.') = true) :
        String.ofList (tail ++ ending.toList) ≠ short := by
      intro same
      have listed : tail ++ ending.toList = short.toList := by rw [← same, String.toList_ofList]
      exact point (of_decide_eq_true (List.all_eq_true.mp dotted last (by rw [← listed, shape]; simp)))
    simp only [Path.isProper, Bool.and_eq_true, ne_eq, decide_eq_true_eq, Bool.not_eq_true',
      List.contains_eq_mem, decide_eq_false_iff_not, String.toList_ofList, List.mem_append, not_or]
    exact ⟨⟨⟨differs "" (by decide), differs "." (by decide)⟩, differs ".." (by decide)⟩, single, plain.2⟩

/-- All workspaces stand in one directory, each with a file name of its own. -/
theorem exists_way (config : WorkspaceConfig) : ∃ (way : List PathPart) (front : List Char), ∀ name,
    config.Names name → ∃ file : FileName, parts (join config.root name) = way ++ [.into file] ∧
      name.toList = front ++ file.text.toList := by
  obtain ⟨front, tail, shape, single, closed⟩ := exists_split config.namePrefix.toList
  refine ⟨if front.head? = some '/' then partsOfChars front else parts config.root ++ partsOfChars front, front, ?_⟩
  rintro name ⟨ending, rfl, named⟩
  have letters : (config.namePrefix ++ ending).toList = front ++ (tail ++ ending.toList) := by
    rw [String.toList_append, shape, List.append_assoc]
  have proper : Path.isProper (String.ofList (tail ++ ending.toList)) = true := by
    refine isProper_tail single closed (named.imp_left fun proper => ?_)
    rwa [List.append_assoc, ← letters, String.ofList_toList]
  obtain ⟨file, last⟩ : ∃ file : FileName, file = ⟨_, proper⟩ := ⟨_, rfl⟩
  have text : file.text.toList = tail ++ ending.toList := by rw [last, String.toList_ofList]
  have slashless := Path.not_mem_of_proper file
  have behind : partsOfChars (front ++ (tail ++ ending.toList)) = partsOfChars front ++ [.into file] := by
    rw [partsOfChars_behind closed, ← text]
    have own : partsOfChars file.text.toList = parts file.text := rfl
    rw [own, Path.parts_of_not_mem slashless, Path.part?_text]
    rfl
  refine ⟨file, ?_, by rw [letters, text]⟩
  have head : (config.namePrefix ++ ending).toList.head? = some '/' ↔ front.head? = some '/' := by
    rw [letters]
    rcases closed with rfl | ⟨before, rfl⟩
    · rw [List.nil_append, ← text]
      simpa using Path.head_ne_slash slashless
    · cases before <;> simp
  split
  · next absolute =>
    rw [Path.join, if_pos (head.mpr absolute), ← behind, ← letters]
    rfl
  · next relative =>
    have own : parts (config.namePrefix ++ ending) = partsOfChars (config.namePrefix ++ ending).toList := rfl
    rw [Path.parts_join (mt head.mp relative), own, letters, behind, List.append_assoc]

/-- The directories of two workspaces are approached in the same way, and neither lies in the other. -/
theorem apart_of_names (named : config.Names name) (alike : config.Names other) :
    approach (join config.root name) = approach (join config.root other) ∧
      (place (join config.root name) <+: place (join config.root other) → name = other) ∧
      place (join config.root name) ≠ [] := by
  obtain ⟨way, front, shapes⟩ := config.exists_way
  obtain ⟨file, parts, letters⟩ := shapes name named
  obtain ⟨second, otherParts, otherLetters⟩ := shapes other alike
  refine ⟨by rw [approach, approach, parts, otherParts, List.dropLast_concat, List.dropLast_concat], fun inside => ?_,
    by simp [place, parts, PathPart.follow]⟩
  simp only [place, parts, otherParts, List.foldl_append, List.foldl_cons, List.foldl_nil, PathPart.follow] at inside
  have same := inside.eq_of_length (by simp)
  have file : file = second := (List.cons.inj (List.append_cancel_left same)).1
  exact String.toList_inj.mp (by rw [letters, otherLetters, file])

/-- The way to the directory of a workspace leads there from the places before. -/
theorem visits_of_names (named : config.Names name) {visited : Place}
    (member : visited ∈ Path.visits (join config.root name)) :
    visited ∈ approach (join config.root name) ∨ visited = place (join config.root name) := by
  obtain ⟨way, front, shapes⟩ := config.exists_way
  obtain ⟨file, parts, _⟩ := shapes name named
  rw [Path.visits, parts] at member
  rw [approach, place, parts, List.dropLast_concat, List.foldl_append]
  exact Path.through_append _ _ _ _ member

/-- A workspace stands when its directory does, and when the way there does not lead through it. -/
structure Stands (config : WorkspaceConfig) (disk : Disk) (directory : String) : Prop where
  named : ∃ name, config.Names name ∧ directory = join config.root name
  clear : place directory ∉ approach directory
  here : disk.isDirectory directory = true

end WorkspaceConfig

namespace Disk

variable {disk next : Disk} {path : String}

theorem isDirectory_iff : disk.isDirectory path = true ↔
    disk.resolve path = .ok (Path.place path) ∧ disk.at? (Path.place path) = some .directory := by
  rw [← find_eq_ok_iff, isDirectory]
  constructor
  · intro stands
    split at stands
    · next found =>
      obtain ⟨resolved, rfl, here⟩ := find_place found
      exact find_eq_ok_iff.mpr ⟨resolved, here⟩
    · simp at stands
  · intro found
    rw [found]

/-- A walk goes through directories before its last part. -/
theorem directory_of_walk_concat {parts : List PathPart} {part : PathPart} :
    ∀ {start found : Place}, disk.walk start (parts ++ [part]) = .ok found →
      ∀ visited ∈ Path.through start parts, disk.at? visited = some .directory := by
  induction parts with
  | nil =>
    intro start found walked visited member
    obtain rfl := List.mem_singleton.mp member
    exact (walk_cons_eq_ok_iff.mp walked).1
  | cons first rest inductionHypothesis =>
    intro start found walked visited member
    obtain ⟨here, _, further⟩ := walk_cons_eq_ok_iff.mp walked
    rcases List.mem_cons.mp member with rfl | later
    · exact here
    · exact inductionHypothesis further visited later

/-- A path that leads somewhere is approached through directories. -/
theorem directory_of_approach {found : Place} (resolved : disk.resolve path = .ok found) :
    ∀ visited ∈ Path.approach path, disk.at? visited = some .directory := by
  have walked := (resolve_eq_ok_iff.mp resolved).2
  intro visited member
  rw [Path.approach] at member
  rcases List.eq_nil_or_concat (Path.parts path) with empty | ⟨parts, part, shape⟩
  · rw [empty] at member
    rw [List.mem_singleton.mp member, at?_top]
  · rw [shape, List.concat_eq_append, List.dropLast_concat] at member
    rw [shape, List.concat_eq_append] at walked
    exact directory_of_walk_concat walked visited member

/-- A directory that has stood still does when the directories on the way to it are kept. -/
theorem isDirectory_of_kept (stands : disk.isDirectory path = true) (kept : ∀ visited ∈ Path.visits path,
    disk.at? visited = some .directory → next.at? visited = some .directory) : next.isDirectory path = true := by
  obtain ⟨resolved, here⟩ := isDirectory_iff.mp stands
  exact isDirectory_iff.mpr ⟨resolve_of_directories resolved kept, kept _ (Path.place_mem_visits path) here⟩

/-- A directory that has been removed with all that is in it does not stand any more. -/
theorem not_isDirectory_of_removeTree (below : Path.place path ≠ []) (removed : disk.removeTree path = .ok next) :
    next.isDirectory path = false := by
  have gone := removeTree_removes removed below (List.prefix_refl _)
  rw [← Bool.not_eq_true, isDirectory_iff, gone]
  simp

theorem removeTree_of_isDirectory (stands : disk.isDirectory path = true) :
    ∃ next, disk.removeTree path = .ok next := by
  have found := find_eq_ok_iff.mpr (isDirectory_iff.mp stands)
  exact ⟨_, by simp only [removeTree, found, bind, Except.bind]; rfl⟩

end Disk

namespace WorkspaceConfig

open Path (join parts place approach)

variable {config : WorkspaceConfig} {disk next : Disk} {directory other : String}

theorem Stands.keep (stands : config.Stands disk directory)
    (kept : ∀ place, disk.at? place = some .directory → next.at? place = some .directory) :
    config.Stands next directory :=
  ⟨stands.named, stands.clear, Disk.isDirectory_of_kept stands.here fun visited _ => kept visited⟩

/-- A workspace goes on to stand when directories are taken away in that of another one only. -/
theorem Stands.beside (stands : config.Stands disk directory) (neighbour : config.Stands next other)
    {after : Disk} (differ : directory ≠ other) (kept : ∀ visited, ¬place other <+: visited →
      disk.at? visited = some .directory → after.at? visited = some .directory) : config.Stands after directory := by
  obtain ⟨name, named, rfl⟩ := stands.named
  obtain ⟨second, alike, rfl⟩ := neighbour.named
  refine ⟨⟨name, named, rfl⟩, stands.clear, Disk.isDirectory_of_kept stands.here fun visited member =>
    kept visited fun inside => ?_⟩
  obtain ⟨way, apart, _⟩ := apart_of_names alike named
  rcases visits_of_names named member with before | rfl
  · exact neighbour.clear (way ▸ Path.above_approach before inside)
  · exact differ (by rw [apart inside])

end WorkspaceConfig

namespace Workspace

variable {config : WorkspaceConfig} {disk next : Disk} {workspace : Workspace} {ending directory : String}

/-- A workspace that is created stands in a directory that there was not before. -/
theorem create_stands (safe : ArtifactStore.isSafeId ending = true)
    (created : create { config } ending disk = (next, workspace, .ok directory)) :
    config.Stands next directory ∧ disk.isDirectory directory = false := by
  obtain ⟨shape, _⟩ := (create_spec created).2 directory rfl
  have named : config.Names (config.namePrefix ++ ending) := ⟨ending, rfl, .inr safe⟩
  rw [create] at created
  dsimp only at created
  split at created
  · simp at created
  · next rooted made =>
    split at created
    · simp at created
    · next held entered =>
      obtain ⟨rfl, -, -⟩ := by simpa using created
      rw [← shape] at entered
      obtain ⟨grows, free, here⟩ := Disk.makeDirectory_eq_ok entered
      have rooting := (Disk.makeDirectories_eq_ok made).1
      -- The way to the new directory is walked before this one is made.
      obtain ⟨resolved, before⟩ : rooted.resolve directory = .ok (Path.place directory) ∧
          ∀ visited ∈ Path.approach directory, rooted.at? visited = some .directory := by
        rw [Disk.makeDirectory] at entered
        cases resolved : rooted.resolve directory with
        | error error => simp [resolved, bind, Except.bind] at entered
        | ok found =>
          obtain rfl := Disk.resolve_place resolved
          exact ⟨rfl, Disk.directory_of_approach resolved⟩
      refine ⟨⟨⟨_, named, shape⟩, fun through => ?_, ?_⟩, ?_⟩
      · rw [before _ through] at free
        simp at free
      · exact Disk.isDirectory_iff.mpr
          ⟨Disk.resolve_of_directories resolved fun _ _ => grows.directory, here⟩
      · rw [← Bool.not_eq_true, Disk.isDirectory_iff]
        rintro ⟨_, stood⟩
        rw [rooting.directory stood] at free
        simp at free

/-- A workspace that is cleaned up does not stand any more, and nothing but what was in it is taken away. -/
theorem cleanup_clears (below : Path.place directory ≠ []) (held : workspace.directory = some directory) :
    (workspace.cleanup disk).1.isDirectory directory = false ∧
      ∀ visited, ¬Path.place directory <+: visited →
        (workspace.cleanup disk).1.at? visited = disk.at? visited := by
  rw [cleanup, held]
  dsimp only
  split
  · next removed => exact ⟨Disk.not_isDirectory_of_removeTree below removed, Disk.removeTree_eq_ok removed⟩
  · next failed =>
    refine ⟨?_, fun _ _ => rfl⟩
    rw [← Bool.not_eq_true]
    intro stands
    obtain ⟨next, removed⟩ := Disk.removeTree_of_isDirectory stands
    simp [removed] at failed

end Workspace

section Stores

variable (fault : Option StoreFault) {disk : Disk} {place : Place}

/-- A store of jobs takes away no directory when it sets a record. -/
theorem JobStore.put_keeps (store : JobStore) (id : JobId) (record : JobRecord)
    (here : disk.at? place = some .directory) :
    (store.put id record fault disk).1.at? place = some .directory := by
  rw [put.eq_def]
  dsimp only
  split
  · split <;> exact here
  · split
    · next saved => exact (JsonFile.save_touches saved).directories place here
    · next saved => exact (JsonFile.save_touches saved).directories place here

theorem JobStore.insert_keeps (store : JobStore) (record : JobRecord) (here : disk.at? place = some .directory) :
    (store.insert record fault disk).1.at? place = some .directory := by
  rw [insert.eq_def]
  split
  · exact here
  · split
    · exact here
    · exact put_keeps _ store _ _ here

theorem JobStore.transition_keeps (store : JobStore) (id : JobId) (transition : Transition) (now : Time.Instant)
    (here : disk.at? place = some .directory) :
    (store.transition id transition now fault disk).1.at? place = some .directory := by
  rw [JobStore.transition.eq_def]
  split
  · exact here
  · split
    · exact here
    · split
      · exact here
      · next after _ =>
        have kept := put_keeps fault store id after here
        split
        · next stored => rwa [stored] at kept
        · next stored => rwa [stored] at kept

/-- A store of artifacts takes away no directory when it keeps one. -/
theorem ArtifactStore.put_keeps (store : ArtifactStore) (artifact : Artifact)
    (here : disk.at? place = some .directory) :
    (store.put artifact fault disk).1.at? place = some .directory := by
  rw [put.eq_def]
  dsimp only
  split
  · exact here
  · split
    · split <;> exact here
    · cases saved : JsonFile.save _ _ _ disk
      exact (JsonFile.save_touches saved).directories place here

end Stores

end ContractWorks
