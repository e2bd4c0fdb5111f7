import ContractWorks.Proofs.Storage.Sweep

namespace ContractWorks

namespace Disk

variable {disk next : Disk} {path : String}

/-- Directories are made only where the parts lead through. -/
theorem makeAlong_others {parts : List PathPart} : ∀ {disk : Disk} {place : Place},
    disk.makeAlong place parts = .ok next → ∀ other ∉ Path.through place parts, next.at? other = disk.at? other := by
  induction parts with
  | nil =>
    intro disk place made other _
    rw [makeAlong, Except.ok.injEq] at made
    rw [made]
  | cons part rest inductionHypothesis =>
    intro disk place made other outside
    have further : other ∉ Path.through (part.follow place) rest :=
      fun member => outside (List.mem_cons_of_mem _ member)
    cases part with
    | up =>
      rw [makeAlong] at made
      exact inductionHypothesis made other further
    | into name =>
      rw [makeAlong] at made
      split at made
      · dsimp only at made
        split at made
        · exact inductionHypothesis made other further
        · simp at made
        · have elsewhere : other ≠ place ++ [name] := by
            rintro rfl
            cases rest <;> exact further List.mem_cons_self
          rw [inductionHypothesis made other further, at?_insert (by simp), if_neg elsewhere]
      · simp at made

theorem makeDirectories_others (made : disk.makeDirectories path = .ok next) :
    ∀ other ∉ Path.visits path, next.at? other = disk.at? other := by
  rw [makeDirectories] at made
  cases taken : partsOf path with
  | error error => simp [taken, bind, Except.bind] at made
  | ok parts =>
    obtain rfl := partsOf_eq_ok taken
    simp only [taken, bind, Except.bind] at made
    exact makeAlong_others made

/-- All that a path leads through is a directory once it has been made. -/
theorem makeDirectories_visits (made : disk.makeDirectories path = .ok next) :
    ∀ visited ∈ Path.visits path, next.at? visited = some .directory := by
  obtain ⟨-, resolved, grounded⟩ := makeDirectories_eq_ok made
  exact directory_of_walk (resolve_eq_ok_iff.mp resolved).2 grounded.here

theorem makeDirectory_others (made : disk.makeDirectory path = .ok next) :
    ∀ other ≠ Path.place path, next.at? other = disk.at? other := by
  intro other elsewhere
  have below : Path.place path ≠ [] := ne_top_of_at? disk (by simp [(makeDirectory_eq_ok made).2.1])
  rw [makeDirectory] at made
  cases resolved : disk.resolve path with
  | error error => simp [resolved, bind, Except.bind] at made
  | ok place =>
    obtain rfl := resolve_place resolved
    simp only [resolved, bind, Except.bind] at made
    split at made
    · simp [throw, throwThe, MonadExceptOf.throw] at made
    · rw [← Except.ok.inj made, at?_insert below, if_neg elsewhere]
    · simp [throw, throwThe, MonadExceptOf.throw] at made
    · simp [throw, throwThe, MonadExceptOf.throw] at made

end Disk

namespace Workspace

/-- The operations of a file system that a workspace calls may fail at any time; what succeeds is done as the disk
does it. -/
structure Operations where
  makeDirectories : Disk → String → Except DiskError Disk
  makeDirectory : Disk → String → Except DiskError Disk
  removeTree : Disk → String → Except DiskError Disk
  makesDirectories : ∀ {disk path next}, makeDirectories disk path = .ok next → disk.makeDirectories path = .ok next
  makesDirectory : ∀ {disk path next}, makeDirectory disk path = .ok next → disk.makeDirectory path = .ok next
  removesTree : ∀ {disk path next}, removeTree disk path = .ok next → disk.removeTree path = .ok next

/-- These operations fail only where the disk does. -/
def Operations.sound : Operations where
  makeDirectories := Disk.makeDirectories
  makeDirectory := Disk.makeDirectory
  removeTree := Disk.removeTree
  makesDirectories := id
  makesDirectory := id
  removesTree := id

/-- This function creates a workspace with the operations. -/
def createBy (operations : Operations) (workspace : Workspace) (ending : String) (disk : Disk) :
    Disk × Workspace × Except WorkspaceError String :=
  match workspace.directory with
  | some directory => (disk, workspace, .ok directory)
  | none =>
    let root := workspace.config.root
    match operations.makeDirectories disk root with
    | .error error => (disk, workspace, .error (resource root error))
    | .ok disk =>
      let directory := Path.join root (workspace.config.namePrefix ++ ending)
      match operations.makeDirectory disk directory with
      | .error error => (disk, workspace, .error (resource root error))
      | .ok disk => (disk, { workspace with directory := some directory }, .ok directory)

/-- This function cleans a workspace up with the operations. -/
def cleanupBy (operations : Operations) (workspace : Workspace) (disk : Disk) :
    Disk × Workspace × Except WorkspaceError Unit :=
  match workspace.directory with
  | none => (disk, workspace, .ok ())
  | some directory =>
    let workspace := { workspace with directory := none }
    match operations.removeTree disk directory with
    | .ok disk => (disk, workspace, .ok ())
    | .error error => (disk, workspace, .error (resource directory error))

/-- A workspace on a sound file system is created and cleaned up as the disk does it. -/
theorem createBy_sound : createBy .sound = create :=
  rfl

theorem cleanupBy_sound : cleanupBy .sound = cleanup :=
  rfl

section Calls

variable {directory : String}

theorem path_eq_ok_iff {workspace : Workspace} :
    workspace.path = .ok directory ↔ workspace.directory = some directory := by
  rw [path]
  cases workspace.directory <;> simp

theorem isReady_iff {workspace : Workspace} :
    workspace.isReady = true ↔ ∃ directory, workspace.path = .ok directory := by
  simp only [path_eq_ok_iff]
  exact Option.isSome_iff_exists

variable {operations : Operations} {workspace after : Workspace} {ending : String} {disk next : Disk}

/-- A creation gives the directory of a workspace that is ready, fails, or makes a new directory in the root. -/
theorem createBy_cases {result : Except WorkspaceError String}
    (called : createBy operations workspace ending disk = (next, after, result)) :
    (∃ directory, workspace.directory = some directory ∧ next = disk ∧ after = workspace ∧ result = .ok directory) ∨
    (workspace.directory = none ∧ after = workspace ∧ (∃ error, result = .error error) ∧
      (next = disk ∨ disk.makeDirectories workspace.config.root = .ok next)) ∨
    (∃ rooted directory, workspace.directory = none ∧ disk.makeDirectories workspace.config.root = .ok rooted ∧
      rooted.makeDirectory directory = .ok next ∧ after = { workspace with directory := some directory } ∧
      result = .ok directory) := by
  rw [createBy] at called
  split at called
  · next directory held =>
    obtain ⟨rfl, rfl, rfl⟩ := by simpa using called
    exact .inl ⟨directory, held, rfl, rfl, rfl⟩
  · next idle =>
    dsimp only at called
    split at called
    · next error failed =>
      obtain ⟨rfl, rfl, rfl⟩ := by simpa using called
      exact .inr (.inl ⟨idle, rfl, ⟨_, rfl⟩, .inl rfl⟩)
    · next rooted made =>
      split at called
      · obtain ⟨rfl, rfl, rfl⟩ := by simpa using called
        exact .inr (.inl ⟨idle, rfl, ⟨_, rfl⟩, .inr (operations.makesDirectories made)⟩)
      · next entered =>
        obtain ⟨rfl, rfl, rfl⟩ := by simpa using called
        exact .inr (.inr ⟨rooted, _, idle, operations.makesDirectories made, operations.makesDirectory entered, rfl, rfl⟩)

/-- A cleanup does nothing to a workspace that is not ready; else it takes the directory out of the workspace, and then
removes it or fails. -/
theorem cleanupBy_cases {result : Except WorkspaceError Unit}
    (called : cleanupBy operations workspace disk = (next, after, result)) :
    (workspace.directory = none ∧ next = disk ∧ after = workspace ∧ result = .ok ()) ∨
    (∃ directory, workspace.directory = some directory ∧ after = { workspace with directory := none } ∧
      (result = .ok () ∧ disk.removeTree directory = .ok next ∨
        next = disk ∧ ∃ text, result = .error (.resource directory text))) := by
  rw [cleanupBy] at called
  split at called
  · next idle =>
    obtain ⟨rfl, rfl, rfl⟩ := by simpa using called
    exact .inl ⟨idle, rfl, rfl, rfl⟩
  · next directory held =>
    dsimp only at called
    split at called
    · next removed =>
      obtain ⟨rfl, rfl, rfl⟩ := by simpa using called
      exact .inr ⟨directory, held, rfl, .inl ⟨rfl, operations.removesTree removed⟩⟩
    · obtain ⟨rfl, rfl, rfl⟩ := by simpa using called
      exact .inr ⟨directory, held, rfl, .inr ⟨rfl, _, rfl⟩⟩

end Calls

/-- An event in the life of a workspace is a call that changes it, with the result. -/
inductive Event where
  | created (result : Except WorkspaceError String)
  | cleaned (result : Except WorkspaceError Unit)

/-- A directory has been allocated when a creation gave it. -/
def Allocated (events : List Event) (directory : String) : Prop :=
  .created (.ok directory) ∈ events

/-- A directory has been abandoned when the cleanup that should have removed it failed. -/
def Abandoned (events : List Event) (directory : String) : Prop :=
  ∃ text, .cleaned (.error (.resource directory text)) ∈ events

/-- This test asks, with the last event first, whether a creation has succeeded since the last cleanup. -/
def opened : List Event → Bool
  | [] => false
  | .created (.ok _) :: _ => true
  | .created (.error _) :: earlier => opened earlier
  | .cleaned _ :: _ => false

/-- In the life of a workspace it is created and cleaned up in any order, with operations that may fail differently at
each call. In between the disk changes in any way that makes no directory at a place where it had one. -/
inductive Life : Disk → Workspace → List Event → Prop
  | new (config : WorkspaceConfig) (disk : Disk) : Life disk { config } []
  | create {disk next : Disk} {workspace after : Workspace} {events : List Event}
      {result : Except WorkspaceError String} (life : Life disk workspace events) (operations : Operations)
      (ending : String) (called : createBy operations workspace ending disk = (next, after, result)) :
      Life next after (.created result :: events)
  | cleanup {disk next : Disk} {workspace after : Workspace} {events : List Event}
      {result : Except WorkspaceError Unit} (life : Life disk workspace events) (operations : Operations)
      (called : cleanupBy operations workspace disk = (next, after, result)) :
      Life next after (.cleaned result :: events)
  | change {disk : Disk} {workspace : Workspace} {events : List Event} (life : Life disk workspace events)
      (next : Disk) (older : ∀ directory, Allocated events directory →
        next.at? (Path.place directory) = some .directory → disk.at? (Path.place directory) = some .directory) :
      Life next workspace events

section Keeping

variable {disk next : Disk} {workspace after : Workspace} {events : List Event} {event : Event} {directory : String}

theorem allocated_cons : Allocated (event :: events) directory ↔
    event = .created (.ok directory) ∨ Allocated events directory := by
  rw [Allocated, List.mem_cons, eq_comm, Allocated]

theorem Abandoned.cons (abandoned : Abandoned events directory) (event : Event) :
    Abandoned (event :: events) directory :=
  abandoned.imp fun _ member => List.mem_cons_of_mem _ member

/-- A directory is accounted for when it stands where that of the workspace does, or where one does that was
abandoned. -/
def Accounted (workspace : Workspace) (events : List Event) (directory : String) : Prop :=
  (∃ own, workspace.directory = some own ∧ Path.place own = Path.place directory) ∨
  ∃ other, Abandoned events other ∧ Path.place other = Path.place directory

theorem Accounted.cons (accounted : Accounted workspace events directory) (event : Event) :
    Accounted workspace (event :: events) directory :=
  accounted.imp_right fun ⟨other, abandoned, same⟩ => ⟨other, abandoned.cons event, same⟩

/-- A workspace without a directory accounts for those only that were abandoned. -/
theorem Accounted.abandoned (accounted : Accounted workspace events directory) (idle : workspace.directory = none) :
    ∃ other, Abandoned events other ∧ Path.place other = Path.place directory := by
  rcases accounted with ⟨own, held, -⟩ | abandoned
  · rw [idle] at held
    exact absurd held (by simp)
  · exact abandoned

theorem Accounted.own_or_abandoned {own : String} (accounted : Accounted workspace events directory)
    (held : workspace.directory = some own) : Path.place own = Path.place directory ∨
      ∃ other, Abandoned events other ∧ Path.place other = Path.place directory := by
  rcases accounted with ⟨other, same, there⟩ | abandoned
  · obtain rfl := Option.some.inj (held.symm.trans same)
    exact .inl there
  · exact .inr abandoned

/-- A directory lies aside when it is not the top, and the way to the root does not lead through it. -/
structure Aside (root directory : String) : Prop where
  below : Path.place directory ≠ []
  outside : Path.place directory ∉ Path.visits root

/-- A workspace is ready after the events that make it so, and accounts for all its directories that still stand. -/
structure Kept (disk : Disk) (workspace : Workspace) (events : List Event) : Prop where
  ready : workspace.isReady = opened events
  held : ∀ directory, workspace.directory = some directory → Allocated events directory
  aside : ∀ directory, Allocated events directory → Aside workspace.config.root directory
  stands : ∀ directory, Allocated events directory → disk.at? (Path.place directory) = some .directory →
    Accounted workspace events directory

theorem Kept.new (config : WorkspaceConfig) (disk : Disk) : Kept disk { config } [] where
  ready := rfl
  held directory held := by simp at held
  aside directory allocated := by simp [Allocated] at allocated
  stands directory allocated := by simp [Allocated] at allocated

theorem Kept.create (kept : Kept disk workspace events) {operations : Operations} {ending : String}
    {result : Except WorkspaceError String} (called : createBy operations workspace ending disk = (next, after, result)) :
    Kept next after (.created result :: events) := by
  have held (other : String) (own : workspace.directory = some other) : Allocated (.created result :: events) other :=
    allocated_cons.mpr (.inr (kept.held other own))
  rcases createBy_cases called with ⟨directory, own, rfl, rfl, rfl⟩ | ⟨idle, rfl, ⟨error, rfl⟩, made⟩ |
    ⟨rooted, directory, idle, made, entered, rfl, rfl⟩
  · -- The directory has been allocated before, so no more is allocated now.
    have former {other : String} (allocated : Allocated (.created (.ok directory) :: events) other) :
        Allocated events other := by
      rcases allocated_cons.mp allocated with same | before
      · obtain rfl := Except.ok.inj (Event.created.inj same)
        exact kept.held _ own
      · exact before
    exact ⟨by rw [isReady, own]; rfl, held, fun other allocated => kept.aside other (former allocated),
      fun other allocated stands => (kept.stands other (former allocated) stands).cons _⟩
  · -- At most the root has been made, and none of the directories is on the way to it.
    have former {other : String} (allocated : Allocated (.created (.error error) :: events) other) :
        Allocated events other :=
      (allocated_cons.mp allocated).resolve_left (by simp)
    refine ⟨kept.ready, held, fun other allocated => kept.aside other (former allocated),
      fun other allocated stands => (kept.stands other (former allocated) ?_).cons _⟩
    rcases made with rfl | made
    · exact stands
    · rwa [← Disk.makeDirectories_others made _ (kept.aside other (former allocated)).outside]
  · have free := (Disk.makeDirectory_eq_ok entered).2.1
    have former {other : String} (allocated : Allocated (.created (.ok directory) :: events) other) :
        other = directory ∨ Allocated events other :=
      (allocated_cons.mp allocated).imp_left fun same => (Except.ok.inj (Event.created.inj same)).symm
    -- The root was made first, so what was free afterwards is not on the way to it.
    have fresh : Aside workspace.config.root directory := by
      refine ⟨Disk.ne_top_of_at? rooted (by simp [free]), fun visited => ?_⟩
      rw [Disk.makeDirectories_visits made _ visited] at free
      exact absurd free (by simp)
    refine ⟨rfl, fun other own => allocated_cons.mpr (.inl (by rw [Option.some.inj own])),
      fun other allocated => ?aside, fun other allocated stands => ?stands⟩
    case aside =>
      rcases former allocated with rfl | before
      · exact fresh
      · exact kept.aside other before
    case stands =>
      by_cases same : Path.place directory = Path.place other
      · exact .inl ⟨directory, rfl, same⟩
      · have before : Allocated events other :=
          (former allocated).resolve_left fun equal => same (congrArg Path.place equal.symm)
        rw [Disk.makeDirectory_others entered _ (Ne.symm same),
          Disk.makeDirectories_others made _ (kept.aside other before).outside] at stands
        obtain ⟨lost, abandoned, there⟩ := (kept.stands other before stands).abandoned idle
        exact .inr ⟨lost, abandoned.cons _, there⟩

theorem Kept.cleanup (kept : Kept disk workspace events) {operations : Operations}
    {result : Except WorkspaceError Unit} (called : cleanupBy operations workspace disk = (next, after, result)) :
    Kept next after (.cleaned result :: events) := by
  have former {other : String} (allocated : Allocated (.cleaned result :: events) other) : Allocated events other :=
    (allocated_cons.mp allocated).resolve_left (by simp)
  rcases cleanupBy_cases called with ⟨idle, rfl, rfl, rfl⟩ | ⟨directory, held, rfl, removal⟩
  · exact ⟨by rw [isReady, idle]; rfl, fun other own => allocated_cons.mpr (.inr (kept.held other own)),
      fun other allocated => kept.aside other (former allocated),
      fun other allocated stands => (kept.stands other (former allocated) stands).cons _⟩
  · refine ⟨rfl, fun other own => by simp at own, fun other allocated => kept.aside other (former allocated),
      fun other allocated stands => .inr ?_⟩
    rcases removal with ⟨-, removed⟩ | ⟨rfl, text, rfl⟩
    · have elsewhere : ¬ Path.place directory <+: Path.place other := by
        intro inside
        have below := (kept.aside directory (kept.held directory held)).below
        rw [Disk.removeTree_removes removed below inside] at stands
        exact absurd stands (by simp)
      rw [Disk.removeTree_eq_ok removed _ elsewhere] at stands
      have accounted := kept.stands other (former allocated) stands
      rcases accounted.own_or_abandoned held with there | ⟨lost, abandoned, there⟩
      · exact absurd (there ▸ List.prefix_refl _) elsewhere
      · exact ⟨lost, abandoned.cons _, there⟩
    · -- The directory was taken out of the workspace before its removal failed, so from here on it is an abandoned one.
      have accounted := kept.stands other (former allocated) stands
      rcases accounted.own_or_abandoned held with there | ⟨lost, abandoned, there⟩
      · exact ⟨directory, ⟨text, List.mem_cons_self⟩, there⟩
      · exact ⟨lost, abandoned.cons _, there⟩

/-- Whatever happens in its life, a workspace accounts for its directories. -/
theorem Life.kept (life : Life disk workspace events) : Kept disk workspace events := by
  induction life with
  | new config disk => exact .new config disk
  | create life operations ending called inductionHypothesis => exact inductionHypothesis.create called
  | cleanup life operations called inductionHypothesis => exact inductionHypothesis.cleanup called
  | change life next older inductionHypothesis =>
    exact { inductionHypothesis with
      stands := fun directory allocated stands =>
        inductionHypothesis.stands directory allocated (older directory allocated stands) }

end Keeping

/-- At every point of its life a workspace is ready just when a creation has succeeded since the last cleanup. While it
is, a creation gives the same directory again and changes nothing; if one fails, it is not ready. A cleanup ends this,
and where there is nothing to end it succeeds. No directory that was ever allocated stands after a cleanup that
succeeds, except where one is that an earlier cleanup has failed to remove. -/
theorem lifecycle {disk : Disk} {workspace : Workspace} {events : List Event} (life : Life disk workspace events) :
    (workspace.isReady = true ↔ ∃ directory, workspace.path = .ok directory) ∧
    (workspace.isReady = true ↔ opened events = true) ∧
    (∀ operations ending, workspace.isReady = true → ∃ directory, workspace.path = .ok directory ∧
      createBy operations workspace ending disk = (disk, workspace, .ok directory)) ∧
    (∀ operations ending next after error, createBy operations workspace ending disk = (next, after, .error error) →
      after.isReady = false) ∧
    (∀ operations, workspace.isReady = false → cleanupBy operations workspace disk = (disk, workspace, .ok ())) ∧
    (∀ operations next after result, cleanupBy operations workspace disk = (next, after, result) →
      after.isReady = false) ∧
    (∀ operations next after, cleanupBy operations workspace disk = (next, after, .ok ()) →
      ∀ directory, Allocated events directory → next.at? (Path.place directory) = some .directory →
        ∃ other, Abandoned events other ∧ Path.place other = Path.place directory) := by
  have kept := life.kept
  refine ⟨isReady_iff, by rw [kept.ready], fun operations ending ready => ?again, fun operations ending => ?failed,
    fun operations idle => ?idle, fun operations next after result called => ?ends,
    fun operations next after called directory allocated stands => ?gone⟩
  case again =>
    obtain ⟨directory, given⟩ := isReady_iff.mp ready
    exact ⟨directory, given, by rw [createBy, path_eq_ok_iff.mp given]⟩
  case failed =>
    intro next after error called
    rcases createBy_cases called with ⟨_, _, _, _, absurdity⟩ | ⟨none, rfl, _⟩ | ⟨_, _, _, _, _, _, absurdity⟩
    · exact absurd absurdity (by simp)
    · rw [isReady, none]
      rfl
    · exact absurd absurdity (by simp)
  case idle =>
    have none : workspace.directory = none := Option.isNone_iff_eq_none.mp (by simpa [isReady] using idle)
    rw [cleanupBy, none]
  case ends => rw [(kept.cleanup called).ready, opened]
  case gone =>
    have ready := (kept.cleanup called).ready
    have none : after.directory = none := Option.isNone_iff_eq_none.mp (by simpa [isReady, opened] using ready)
    have accounted := (kept.cleanup called).stands directory (allocated_cons.mpr (.inr allocated)) stands
    obtain ⟨other, ⟨text, member⟩, there⟩ := accounted.abandoned none
    exact ⟨other, ⟨text, (List.mem_cons.mp member).resolve_left (by simp)⟩, there⟩

section Runs

/-- This workspace has not been created yet. -/
def plainWorkspace : Workspace :=
  { config := { root := "ws", namePrefix := "j" } }

def plainRoot : FileName :=
  ⟨"ws", by decide⟩

def firstName : FileName :=
  ⟨"j000001", by decide⟩

/-- It has its first directory here. -/
def plainHoused : Workspace :=
  { plainWorkspace with directory := some "ws/j000001" }

def plainDisk : Disk :=
  ⟨[([plainRoot], .directory), ([plainRoot, firstName], .directory)]⟩

def clearedDisk : Disk :=
  ⟨[([plainRoot], .directory)]⟩

/-- A workspace that is ready keeps its directory when it is created again, and a cleanup leaves nothing behind. -/
theorem lifecycle_plain :
    Life plainDisk plainHoused [.created (.ok "ws/j000001")] ∧ plainHoused.isReady = true ∧
    create plainHoused "000002" plainDisk = (plainDisk, plainHoused, .ok "ws/j000001") ∧
    cleanup plainHoused plainDisk = (clearedDisk, plainWorkspace, .ok ()) ∧
    clearedDisk.at? (Path.place "ws/j000001") ≠ some .directory := by
  have life : Life plainDisk plainHoused [.created (.ok "ws/j000001")] :=
    .create (.new plainWorkspace.config .empty) .sound "000001" rfl
  have cleaned : cleanup plainHoused plainDisk = (clearedDisk, plainWorkspace, .ok ()) := rfl
  obtain ⟨-, -, again, -, -, -, gone⟩ := lifecycle life
  obtain ⟨directory, given, same⟩ := again .sound "000002" rfl
  obtain rfl := Except.ok.inj given
  refine ⟨life, rfl, same, cleaned, fun stands => ?_⟩
  obtain ⟨other, ⟨text, member⟩, -⟩ := gone .sound _ _ cleaned "ws/j000001" List.mem_cons_self stands
  simp at member

/-- The root of this workspace is reached through a directory that may be taken away. -/
def crooked : Workspace :=
  { config := { root := "j-/..", namePrefix := "j" } }

def detour : FileName :=
  ⟨"j-", by decide⟩

def crookedHoused : Workspace :=
  { crooked with directory := some "j-/../j000001" }

def crookedDisk : Disk :=
  ⟨[([detour], .directory), ([firstName], .directory)]⟩

def brokenDisk : Disk :=
  ⟨[([firstName], .directory)]⟩

def mendedDisk : Disk :=
  ⟨[([firstName], .directory), ([detour], .directory)]⟩

/-- A directory stays when its cleanup fails, here since the way to it is broken. The next cleanup succeeds all the same,
and the directory still stands. -/
theorem abandoned_stands :
    create crooked "000001" .empty = (crookedDisk, crookedHoused, .ok "j-/../j000001") ∧
    crookedDisk.removeTree "j-" = .ok brokenDisk ∧
    cleanup crookedHoused brokenDisk = (brokenDisk, crooked, .error (.resource "j-/../j000001" "<os error>")) ∧
    brokenDisk.makeDirectory "j-" = .ok mendedDisk ∧
    Life mendedDisk crooked
      [.cleaned (.error (.resource "j-/../j000001" "<os error>")), .created (.ok "j-/../j000001")] ∧
    cleanup crooked mendedDisk = (mendedDisk, crooked, .ok ()) ∧
    mendedDisk.isDirectory "j-/../j000001" = true := by
  have made : Life crookedDisk crookedHoused [.created (.ok "j-/../j000001")] :=
    .create (.new crooked.config .empty) .sound "000001" rfl
  have broken : Life brokenDisk crookedHoused [.created (.ok "j-/../j000001")] := by
    refine .change made brokenDisk fun directory allocated _ => ?_
    obtain rfl : directory = "j-/../j000001" := by simpa [Allocated] using allocated
    rfl
  have spent := Life.cleanup broken .sound (rfl : cleanup crookedHoused brokenDisk = (brokenDisk, crooked, _))
  refine ⟨rfl, rfl, rfl, rfl, .change spent mendedDisk fun directory allocated _ => ?_, rfl, rfl⟩
  obtain rfl : directory = "j-/../j000001" := by simpa [Allocated] using allocated
  rfl

end Runs

end Workspace

end ContractWorks
