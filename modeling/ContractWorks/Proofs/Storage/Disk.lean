import ContractWorks.Proofs.Table
import ContractWorks.Storage.Disk

namespace ContractWorks

/-- This function gives the place that a part leads to. -/
def PathPart.follow (place : Place) : PathPart → Place
  | .up => place.dropLast
  | .into name => place ++ [name]

/-- A part fits when its name does. -/
def PathPart.Fits : PathPart → Prop
  | .up => True
  | .into name => Disk.fits name = true

namespace Path

/-- This function gives the places that parts lead through, the first and the last one included. -/
def through (place : Place) : List PathPart → List Place
  | [] => [place]
  | part :: rest => place :: through (part.follow place) rest

/-- This function gives the place that a path leads to. -/
def place (path : String) : Place :=
  (parts path).foldl PathPart.follow []

/-- This function gives the places that a path leads through. -/
def visits (path : String) : List Place :=
  through [] (parts path)

theorem mem_through_last (place : Place) (parts : List PathPart) :
    parts.foldl PathPart.follow place ∈ through place parts := by
  induction parts generalizing place with
  | nil => simp [through]
  | cons part rest inductionHypothesis =>
    rw [List.foldl_cons, through]
    exact List.mem_cons_of_mem _ (inductionHypothesis _)

theorem through_append (place : Place) (parts : List PathPart) (name : FileName) :
    ∀ visited ∈ through place (parts ++ [.into name]),
      visited ∈ through place parts ∨ visited = parts.foldl PathPart.follow place ++ [name] := by
  induction parts generalizing place with
  | nil =>
    intro visited member
    simp only [List.nil_append, through, PathPart.follow, List.mem_cons, List.not_mem_nil, or_false]
      at member
    simpa [through] using member
  | cons part rest inductionHypothesis =>
    intro visited member
    rw [List.cons_append, through] at member
    rcases List.mem_cons.mp member with rfl | later
    · exact .inl List.mem_cons_self
    · rcases inductionHypothesis _ visited later with before | last
      · exact .inl (List.mem_cons_of_mem _ before)
      · exact .inr last

theorem place_mem_visits (path : String) : place path ∈ visits path :=
  mem_through_last [] (parts path)

end Path

namespace Disk

@[simp] theorem at?_top (disk : Disk) : disk.at? [] = some .directory := by
  rw [at?, if_pos rfl]

theorem at?_of_ne {place : Place} (disk : Disk) (below : place ≠ []) :
    disk.at? place = Table.get? place disk.entries := by
  rw [at?, if_neg below]

theorem ne_top_of_at? (disk : Disk) {place : Place} (other : disk.at? place ≠ some .directory) :
    place ≠ [] := by
  rintro rfl
  exact other disk.at?_top

/-- Setting an entry below the top changes what stands there and nothing else. -/
theorem at?_insert {disk : Disk} {place : Place} (below : place ≠ []) (entry : DiskEntry)
    (other : Place) :
    (Disk.mk (Table.insert place entry disk.entries)).at? other =
      if other = place then some entry else disk.at? other := by
  by_cases same : other = place
  · subst same
    rw [if_pos rfl, at?_of_ne _ below]
    exact Table.get?_insert_self _ _ _
  · rw [if_neg same, at?, at?, Table.get?_insert_of_ne same]

theorem at?_erase {disk : Disk} {place : Place} (below : place ≠ []) (other : Place) :
    (Disk.mk (Table.erase place disk.entries)).at? other =
      if other = place then none else disk.at? other := by
  by_cases same : other = place
  · subst same
    rw [if_pos rfl, at?_of_ne _ below]
    exact Table.get?_erase_self _ _
  · rw [if_neg same, at?, at?, Table.get?_erase_of_ne same]

/-- A walk goes on from a directory only, and only into a name that fits. -/
theorem walk_cons_eq_ok_iff {disk : Disk} {place found : Place} {part : PathPart}
    {rest : List PathPart} :
    disk.walk place (part :: rest) = .ok found ↔
      disk.at? place = some .directory ∧ part.Fits ∧
        disk.walk (part.follow place) rest = .ok found := by
  rw [walk.eq_def]
  cases here : disk.at? place with
  | none => simp [here]
  | some entry =>
    cases entry with
    | file content => simp [here]
    | directory =>
      cases part with
      | up => simp [here, PathPart.Fits, PathPart.follow]
      | into name => by_cases room : fits name = true <;> simp [here, room, PathPart.Fits, PathPart.follow]

/-- A walk ends where its parts lead to. -/
theorem walk_place {disk : Disk} {parts : List PathPart} :
    ∀ {place found : Place}, disk.walk place parts = .ok found →
      found = parts.foldl PathPart.follow place := by
  induction parts with
  | nil =>
    intro place found walked
    rw [walk, Except.ok.injEq] at walked
    exact walked.symm
  | cons part rest inductionHypothesis =>
    intro place found walked
    exact inductionHypothesis (walk_cons_eq_ok_iff.mp walked).2.2

/-- A walk goes the same way on a disk that has the same directories where it leads through. -/
theorem walk_of_directories {disk next : Disk} {parts : List PathPart} :
    ∀ {place found : Place}, disk.walk place parts = .ok found →
      (∀ visited ∈ Path.through place parts,
        disk.at? visited = some .directory → next.at? visited = some .directory) →
      next.walk place parts = .ok found := by
  induction parts with
  | nil =>
    intro place found walked _
    rw [walk] at walked ⊢
    exact walked
  | cons part rest inductionHypothesis =>
    intro place found walked kept
    obtain ⟨here, fits, further⟩ := walk_cons_eq_ok_iff.mp walked
    have there := kept place (by simp [Path.through]) here
    have others : ∀ visited ∈ Path.through (part.follow place) rest,
        disk.at? visited = some .directory → next.at? visited = some .directory :=
      fun visited member => kept visited (by simp [Path.through, member])
    exact walk_cons_eq_ok_iff.mpr ⟨there, fits, inductionHypothesis further others⟩

/-- All places on a walk to a directory are directories. -/
theorem directory_of_walk {disk : Disk} {parts : List PathPart} :
    ∀ {place found : Place}, disk.walk place parts = .ok found → disk.at? found = some .directory →
      ∀ visited ∈ Path.through place parts, disk.at? visited = some .directory := by
  induction parts with
  | nil =>
    intro place found walked last visited member
    rw [walk, Except.ok.injEq] at walked
    rw [Path.through, List.mem_singleton] at member
    rw [member, walked, last]
  | cons part rest inductionHypothesis =>
    intro place found walked last visited member
    obtain ⟨here, fits, further⟩ := walk_cons_eq_ok_iff.mp walked
    rcases List.mem_cons.mp member with rfl | later
    · exact here
    · exact inductionHypothesis further last visited later

/-- A walk goes on into one more name from a directory. -/
theorem walk_append {disk : Disk} {parts : List PathPart} {name : FileName} :
    ∀ {place found : Place}, disk.walk place parts = .ok found → disk.at? found = some .directory →
      fits name = true → disk.walk place (parts ++ [.into name]) = .ok (found ++ [name]) := by
  induction parts with
  | nil =>
    intro place found walked last room
    rw [walk, Except.ok.injEq] at walked
    subst walked
    exact walk_cons_eq_ok_iff.mpr ⟨last, room, by rw [walk]; rfl⟩
  | cons part rest inductionHypothesis =>
    intro place found walked last room
    obtain ⟨here, fits, further⟩ := walk_cons_eq_ok_iff.mp walked
    exact walk_cons_eq_ok_iff.mpr ⟨here, fits, inductionHypothesis further last room⟩

theorem partsOf_eq_ok {path : String} {parts : List PathPart} (taken : partsOf path = .ok parts) :
    parts = Path.parts path := by
  rw [partsOf] at taken
  split at taken
  · exact absurd taken (by simp)
  · split at taken
    · exact (Except.ok.inj taken).symm
    · exact absurd taken (by simp)

theorem resolve_eq_ok_iff {disk : Disk} {path : String} {found : Place} :
    disk.resolve path = .ok found ↔
      partsOf path = .ok (Path.parts path) ∧ disk.walk [] (Path.parts path) = .ok found := by
  rw [resolve]
  cases taken : partsOf path with
  | error error => simp [bind, Except.bind]
  | ok parts =>
    rw [partsOf_eq_ok taken]
    simp [bind, Except.bind]

theorem resolve_place {disk : Disk} {path : String} {found : Place}
    (resolved : disk.resolve path = .ok found) : found = Path.place path :=
  walk_place (resolve_eq_ok_iff.mp resolved).2

/-- A path leads to the same place on a disk that has the same directories on its way. -/
theorem resolve_of_directories {disk next : Disk} {path : String} {found : Place}
    (resolved : disk.resolve path = .ok found)
    (kept : ∀ visited ∈ Path.visits path,
      disk.at? visited = some .directory → next.at? visited = some .directory) :
    next.resolve path = .ok found := by
  obtain ⟨taken, walked⟩ := resolve_eq_ok_iff.mp resolved
  exact resolve_eq_ok_iff.mpr ⟨taken, walk_of_directories walked kept⟩

theorem find_eq_ok_iff {disk : Disk} {path : String} {place : Place} {entry : DiskEntry} :
    disk.find path = .ok (place, entry) ↔
      disk.resolve path = .ok place ∧ disk.at? place = some entry := by
  rw [find]
  cases resolved : disk.resolve path with
  | error error => simp [bind, Except.bind]
  | ok found =>
    simp only [bind, Except.bind, Except.ok.injEq]
    split
    · next entry' standing =>
      simp only [pure, Except.pure, Except.ok.injEq, Prod.mk.injEq]
      constructor
      · rintro ⟨rfl, rfl⟩
        exact ⟨rfl, standing⟩
      · rintro ⟨rfl, same⟩
        rw [standing] at same
        exact ⟨rfl, Option.some.inj same⟩
    · next missing =>
      simp only [throw, throwThe, MonadExceptOf.throw, reduceCtorEq, false_iff]
      rintro ⟨rfl, same⟩
      rw [missing] at same
      exact absurd same (by simp)

theorem find_place {disk : Disk} {path : String} {found : Place × DiskEntry}
    (standing : disk.find path = .ok found) :
    disk.resolve path = .ok (Path.place path) ∧ found.1 = Path.place path ∧
      disk.at? (Path.place path) = some found.2 := by
  obtain ⟨place, entry⟩ := found
  obtain ⟨resolved, here⟩ := find_eq_ok_iff.mp standing
  obtain rfl := resolve_place resolved
  exact ⟨resolved, rfl, here⟩

theorem read_eq_ok_iff {disk : Disk} {path : String} {content : ByteArray} :
    disk.read path = .ok content ↔
      disk.resolve path = .ok (Path.place path) ∧
        disk.at? (Path.place path) = some (.file content) := by
  rw [read]
  cases standing : disk.find path with
  | error error =>
    simp only [bind, Except.bind, reduceCtorEq, false_iff]
    intro reading
    rw [find_eq_ok_iff.mpr reading] at standing
    exact absurd standing (by simp)
  | ok found =>
    obtain ⟨resolved, place, here⟩ := find_place standing
    obtain ⟨place', entry⟩ := found
    cases entry with
    | directory =>
      simp only [bind, Except.bind, throw, throwThe, MonadExceptOf.throw, reduceCtorEq, false_iff]
      intro reading
      rw [reading.2] at here
      exact absurd here (by simp)
    | file octets =>
      simp only [bind, Except.bind, pure, Except.pure, Except.ok.injEq]
      constructor
      · rintro rfl
        exact ⟨resolved, here⟩
      · intro reading
        rw [reading.2] at here
        simpa using here.symm

/-- A write sets one file in a directory and leaves the rest as it is. -/
theorem write_eq_ok {disk next : Disk} {path : String} {content : ByteArray}
    (written : disk.write path content = .ok next) :
    disk.resolve path = .ok (Path.place path) ∧ disk.at? (Path.place path) ≠ some .directory ∧
      ∀ other, next.at? other =
        if other = Path.place path then some (.file content) else disk.at? other := by
  rw [write] at written
  cases resolved : disk.resolve path with
  | error error => simp [resolved, bind, Except.bind] at written
  | ok place =>
    obtain rfl := resolve_place resolved
    simp only [resolved, bind, Except.bind] at written
    split at written
    · simp [throw, throwThe, MonadExceptOf.throw] at written
    · next octets here =>
      have other : disk.at? (Path.place path) ≠ some .directory := by simp [here]
      refine ⟨rfl, other, fun place => ?_⟩
      rw [← Except.ok.inj written]
      exact at?_insert (ne_top_of_at? disk other) _ place
    · next missing =>
      have other : disk.at? (Path.place path) ≠ some .directory := by simp [missing]
      split at written
      · refine ⟨rfl, other, fun place => ?_⟩
        rw [← Except.ok.inj written]
        exact at?_insert (ne_top_of_at? disk other) _ place
      · simp [throw, throwThe, MonadExceptOf.throw] at written
      · simp [throw, throwThe, MonadExceptOf.throw] at written

/-- A file in a directory can be written where no directory stands. -/
theorem write_of_resolve {disk : Disk} {path : String} (content : ByteArray)
    (resolved : disk.resolve path = .ok (Path.place path))
    (other : disk.at? (Path.place path) ≠ some .directory)
    (above : disk.at? (Path.place path).dropLast = some .directory) :
    ∃ next, disk.write path content = .ok next := by
  rw [write]
  simp only [resolved, bind, Except.bind]
  split
  · next here => exact absurd here other
  · exact ⟨_, rfl⟩
  · rw [above]
    exact ⟨_, rfl⟩

/-- A move takes a file from one place to another and leaves the rest as it is. -/
theorem rename_eq_ok {disk next : Disk} {source target : String}
    (renamed : disk.rename source target = .ok next) :
    ∃ content, disk.at? (Path.place source) = some (.file content) ∧
      disk.resolve target = .ok (Path.place target) ∧
        disk.at? (Path.place target) ≠ some .directory ∧
          ∀ other, next.at? other =
            if other = Path.place target then some (.file content)
            else if other = Path.place source then none else disk.at? other := by
  rw [rename] at renamed
  cases standing : disk.find source with
  | error error => simp [standing, bind, Except.bind] at renamed
  | ok found =>
    obtain ⟨_, place, here⟩ := find_place standing
    obtain ⟨place', entry⟩ := found
    obtain rfl := place
    simp only [standing, bind, Except.bind] at renamed
    cases entry with
    | directory => simp [throw, throwThe, MonadExceptOf.throw] at renamed
    | file content =>
      simp only at renamed
      cases written : disk.write target content with
      | error error => simp [written] at renamed
      | ok copied =>
        obtain ⟨resolved, free, copy⟩ := write_eq_ok written
        refine ⟨content, here, resolved, free, fun other => ?_⟩
        have below : Path.place source ≠ [] := ne_top_of_at? disk (by simp [here])
        simp only [written] at renamed
        cases found : copied.resolve target with
        | error error => simp [found] at renamed
        | ok place =>
          obtain rfl := resolve_place found
          simp only [found] at renamed
          split at renamed
          · next same =>
            rw [← Except.ok.inj renamed, copy other]
            by_cases there : other = Path.place target
            · rw [if_pos there, if_pos there]
            · rw [if_neg there, if_neg there, if_neg (same ▸ there)]
          · next differ =>
            rw [← Except.ok.inj renamed, at?_erase below, copy other]
            by_cases there : other = Path.place target
            · rw [if_pos there, if_pos there, if_neg (there ▸ differ)]
            · rw [if_neg there, if_neg there]

/-- A file can be moved over a file or to a free place. -/
theorem rename_of_resolve {disk : Disk} {source target : String} {content : ByteArray}
    (from' : disk.resolve source = .ok (Path.place source))
    (here : disk.at? (Path.place source) = some (.file content))
    (resolved : disk.resolve target = .ok (Path.place target))
    (free : disk.at? (Path.place target) ≠ some .directory)
    (above : disk.at? (Path.place target).dropLast = some .directory) :
    ∃ next, disk.rename source target = .ok next := by
  obtain ⟨copied, written⟩ := write_of_resolve content resolved free above
  have found := find_eq_ok_iff.mpr ⟨from', here⟩
  obtain ⟨_, _, copy⟩ := write_eq_ok written
  have again : copied.resolve target = .ok (Path.place target) := by
    refine resolve_of_directories resolved fun visited _ directory => ?_
    have differ : visited ≠ Path.place target := by
      rintro rfl
      exact free directory
    rw [copy visited, if_neg differ, directory]
  rw [rename]
  simp only [found, written, again, bind, Except.bind]
  split
  · exact ⟨_, rfl⟩
  · exact ⟨_, rfl⟩

/-- A disk grows when what stands on it stays, and when nothing but directories is added. -/
def Grows (disk next : Disk) : Prop :=
  ∀ place, next.at? place = disk.at? place ∨
    (disk.at? place = none ∧ next.at? place = some .directory)

theorem Grows.refl (disk : Disk) : disk.Grows disk :=
  fun _ => .inl rfl

theorem Grows.trans {first second third : Disk} (former : first.Grows second)
    (latter : second.Grows third) : first.Grows third := by
  intro place
  rcases former place with same | ⟨free, made⟩
  · rw [← same]
    exact latter place
  · rcases latter place with kept | ⟨missing, _⟩
    · exact .inr ⟨free, kept.trans made⟩
    · rw [made] at missing
      exact absurd missing (by simp)

theorem Grows.directory {disk next : Disk} (grows : disk.Grows next) {place : Place}
    (here : disk.at? place = some .directory) : next.at? place = some .directory := by
  rcases grows place with same | ⟨free, _⟩
  · rw [same, here]
  · rw [here] at free
    exact absurd free (by simp)

theorem grows_insert {disk : Disk} {place : Place} (free : disk.at? place = none) :
    disk.Grows ⟨Table.insert place .directory disk.entries⟩ := by
  have below : place ≠ [] := ne_top_of_at? disk (by simp [free])
  intro other
  rw [at?_insert below]
  split
  · next same =>
    subst same
    exact .inr ⟨free, rfl⟩
  · exact .inl rfl

/-- A place is grounded when it and all places above it are directories. -/
def Grounded (disk : Disk) (place : Place) : Prop :=
  ∀ above, above <+: place → disk.at? above = some .directory

theorem Grounded.here {disk : Disk} {place : Place} (grounded : disk.Grounded place) :
    disk.at? place = some .directory :=
  grounded place (List.prefix_refl place)

theorem Grounded.grow {disk next : Disk} {place : Place} (grounded : disk.Grounded place)
    (grows : disk.Grows next) : next.Grounded place :=
  fun above inside => grows.directory (grounded above inside)

theorem Grounded.dropLast {disk : Disk} {place : Place} (grounded : disk.Grounded place) :
    disk.Grounded place.dropLast :=
  fun above inside => grounded above (inside.trans (List.dropLast_prefix place))

theorem Grounded.append {disk : Disk} {place : Place} {name : FileName} (grounded : disk.Grounded place)
    (made : disk.at? (place ++ [name]) = some .directory) : disk.Grounded (place ++ [name]) := by
  intro above inside
  rcases List.prefix_concat_iff.mp inside with rfl | before
  · exact made
  · exact grounded above before

theorem grounded_top (disk : Disk) : disk.Grounded [] := by
  intro above inside
  rw [List.prefix_nil.mp inside]
  exact disk.at?_top

/-- Once the directories along parts are made, the parts can be walked to a directory. -/
theorem makeAlong_eq_ok {parts : List PathPart} :
    ∀ {disk next : Disk} {place : Place}, disk.makeAlong place parts = .ok next →
      disk.Grounded place → disk.Grows next ∧
        next.walk place parts = .ok (parts.foldl PathPart.follow place) ∧
          next.Grounded (parts.foldl PathPart.follow place) := by
  induction parts with
  | nil =>
    intro disk next place made grounded
    rw [makeAlong, Except.ok.injEq] at made
    subst made
    exact ⟨.refl disk, by rw [walk]; rfl, grounded⟩
  | cons part rest inductionHypothesis =>
    intro disk next place made grounded
    have goOn : ∀ {middle : Disk}, disk.Grows middle → part.Fits → middle.Grounded (part.follow place) →
        middle.makeAlong (part.follow place) rest = .ok next → disk.Grows next ∧
          next.walk place (part :: rest) = .ok ((part :: rest).foldl PathPart.follow place) ∧
            next.Grounded ((part :: rest).foldl PathPart.follow place) := by
      intro middle grows fits further left
      obtain ⟨after, walked, last⟩ := inductionHypothesis left further
      have all := grows.trans after
      exact ⟨all, walk_cons_eq_ok_iff.mpr ⟨(grounded.grow all).here, fits, walked⟩, last⟩
    cases part with
    | up =>
      rw [makeAlong] at made
      exact goOn (.refl disk) trivial grounded.dropLast made
    | into name =>
      rw [makeAlong] at made
      split at made
      · next fits =>
        simp only at made
        split at made
        · next there => exact goOn (.refl disk) fits (grounded.append there) made
        · simp at made
        · next free =>
          have grows := grows_insert free
          have there : (Disk.mk (Table.insert (place ++ [name]) .directory disk.entries)).at?
              (place ++ [name]) = some .directory := by
            rw [at?_insert (by simp), if_pos rfl]
          exact goOn grows fits ((grounded.grow grows).append there) made
      · simp at made

theorem makeDirectories_eq_ok {disk next : Disk} {path : String}
    (made : disk.makeDirectories path = .ok next) :
    disk.Grows next ∧ next.resolve path = .ok (Path.place path) ∧ next.Grounded (Path.place path) := by
  rw [makeDirectories] at made
  cases taken : partsOf path with
  | error error => simp [taken, bind, Except.bind] at made
  | ok parts =>
    obtain rfl := partsOf_eq_ok taken
    simp only [taken, bind, Except.bind] at made
    obtain ⟨grows, walked, last⟩ := makeAlong_eq_ok made disk.grounded_top
    exact ⟨grows, resolve_eq_ok_iff.mpr ⟨taken, walked⟩, last⟩

/-- Where all directories stand already, none has to be made. -/
theorem makeAlong_of_walk {disk : Disk} {parts : List PathPart} :
    ∀ {place found : Place}, disk.walk place parts = .ok found → disk.at? found = some .directory →
      disk.makeAlong place parts = .ok disk := by
  induction parts with
  | nil =>
    intro place found _ _
    rw [makeAlong]
  | cons part rest inductionHypothesis =>
    intro place found walked last
    obtain ⟨here, fits, further⟩ := walk_cons_eq_ok_iff.mp walked
    cases part with
    | up =>
      rw [makeAlong]
      exact inductionHypothesis further last
    | into name =>
      have room : Disk.fits name = true := fits
      have there : disk.at? (place ++ [name]) = some .directory := by
        apply directory_of_walk further last
        cases rest <;> simp [Path.through, PathPart.follow]
      rw [makeAlong, if_pos room]
      simp only [there]
      exact inductionHypothesis further last

theorem makeDirectories_of_resolve {disk : Disk} {path : String} {place : Place}
    (resolved : disk.resolve path = .ok place) (here : disk.at? place = some .directory) :
    disk.makeDirectories path = .ok disk := by
  obtain ⟨taken, walked⟩ := resolve_eq_ok_iff.mp resolved
  rw [makeDirectories]
  simp only [taken, bind, Except.bind]
  exact makeAlong_of_walk walked here

/-- A new directory comes where nothing stood. -/
theorem makeDirectory_eq_ok {disk next : Disk} {path : String}
    (made : disk.makeDirectory path = .ok next) :
    disk.Grows next ∧ disk.at? (Path.place path) = none ∧
      next.at? (Path.place path) = some .directory := by
  rw [makeDirectory] at made
  cases resolved : disk.resolve path with
  | error error => simp [resolved, bind, Except.bind] at made
  | ok place =>
    obtain rfl := resolve_place resolved
    simp only [resolved, bind, Except.bind] at made
    split at made
    · simp [throw, throwThe, MonadExceptOf.throw] at made
    · next free _ =>
      have below : Path.place path ≠ [] := ne_top_of_at? disk (by simp [free])
      rw [← Except.ok.inj made]
      exact ⟨grows_insert free, free, by rw [at?_insert below, if_pos rfl]⟩
    · simp [throw, throwThe, MonadExceptOf.throw] at made
    · simp [throw, throwThe, MonadExceptOf.throw] at made

/-- A directory is removed with what lies in it; the rest stays. -/
theorem removeTree_eq_ok {disk next : Disk} {path : String}
    (removed : disk.removeTree path = .ok next) :
    ∀ other, ¬Path.place path <+: other → next.at? other = disk.at? other := by
  rw [removeTree] at removed
  cases standing : disk.find path with
  | error error => simp [standing, bind, Except.bind] at removed
  | ok found =>
    obtain ⟨_, place, _⟩ := find_place standing
    obtain ⟨place', entry⟩ := found
    obtain rfl := place
    simp only [standing, bind, Except.bind] at removed
    cases entry with
    | file content => simp [throw, throwThe, MonadExceptOf.throw] at removed
    | directory =>
      intro other outside
      rw [← Except.ok.inj removed, at?, at?]
      split
      · rfl
      · have kept : (Path.place path).isPrefixOf other = false := by
          rw [Bool.eq_false_iff, ne_eq, List.isPrefixOf_iff_prefix]
          exact outside
        rw [Table.get?_filter true (fun _ => by rw [kept]; rfl)]
        rfl

theorem childName_eq_some_iff {parent place : Place} {name : FileName} :
    childName parent place = some name ↔ place = parent ++ [name] := by
  unfold childName
  constructor
  · intro found
    split at found
    · next inside =>
      simp only [Bool.and_eq_true, List.isPrefixOf_iff_prefix, decide_eq_true_eq] at inside
      obtain ⟨⟨rest, rfl⟩, length⟩ := inside
      rw [List.length_append] at length
      obtain ⟨last, rfl⟩ := List.length_eq_one_iff.mp (show rest.length = 1 by omega)
      rw [List.getLast?_concat] at found
      rw [Option.some.inj found]
    · simp at found
  · rintro rfl
    simp

/-- The names in a directory are those under which something stands in it. -/
theorem mem_list {disk : Disk} {path : String} {names : List String}
    (listed : disk.list path = .ok names) (text : String) :
    text ∈ names ↔ ∃ name : FileName, name.text = text ∧
      disk.at? (Path.place path ++ [name]) ≠ none := by
  rw [list] at listed
  cases standing : disk.find path with
  | error error => simp [standing, bind, Except.bind] at listed
  | ok found =>
    obtain ⟨_, place, _⟩ := find_place standing
    obtain ⟨place', entry⟩ := found
    obtain rfl := place
    simp only [standing, bind, Except.bind] at listed
    cases entry with
    | file content => simp [throw, throwThe, MonadExceptOf.throw] at listed
    | directory =>
      rw [← Except.ok.inj listed, List.mem_mergeSort, List.mem_filterMap]
      constructor
      · rintro ⟨⟨place, entry⟩, member, found⟩
        obtain ⟨name, child, rfl⟩ := Option.map_eq_some_iff.mp found
        obtain rfl := childName_eq_some_iff.mp child
        refine ⟨name, rfl, ?_⟩
        rw [at?_of_ne _ (by simp), Table.get?_ne_none_iff]
        exact List.mem_map.mpr ⟨_, member, rfl⟩
      · rintro ⟨name, rfl, standing⟩
        rw [at?_of_ne _ (by simp), Table.get?_ne_none_iff] at standing
        obtain ⟨⟨place, entry⟩, member, rfl⟩ := List.mem_map.mp standing
        exact ⟨_, member, by simp [childName_eq_some_iff.mpr rfl]⟩

theorem list_of_resolve {disk : Disk} {path : String} {place : Place}
    (resolved : disk.resolve path = .ok place) (here : disk.at? place = some .directory) :
    ∃ names, disk.list path = .ok names := by
  rw [list]
  simp only [find_eq_ok_iff.mpr ⟨resolved, here⟩, bind, Except.bind]
  exact ⟨_, rfl⟩

end Disk

end ContractWorks
