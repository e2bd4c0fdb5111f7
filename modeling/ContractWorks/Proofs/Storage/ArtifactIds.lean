import ContractWorks.Proofs.Storage.LastPut
import ContractWorks.Service.Serve

namespace ContractWorks

open Path (Plain place recordName spareName)

namespace Disk

variable {base : String} {name : FileName} {disk next : Disk}

/-- When a walk comes to a name, all that lies before the name are directories. -/
theorem directories_of_walk {parts : List PathPart} : ∀ {start found : Place},
    disk.walk start (parts ++ [.into name]) = .ok found →
      ∀ visited ∈ Path.through start parts, disk.at? visited = some .directory := by
  induction parts with
  | nil =>
    intro start found walked visited member
    rw [Path.through, List.mem_singleton] at member
    rw [member]
    exact (walk_cons_eq_ok_iff.mp walked).1
  | cons part rest inductionHypothesis =>
    intro start found walked visited member
    obtain ⟨here, -, further⟩ := walk_cons_eq_ok_iff.mp walked
    rcases List.mem_cons.mp member with rfl | later
    · exact here
    · exact inductionHypothesis further visited later

theorem leads_of_resolve {found : Place} (resolved : disk.resolve (Path.join base name.text) = .ok found) :
    disk.Leads base := by
  have walked := (resolve_eq_ok_iff.mp resolved).2
  rw [Path.parts_join_text] at walked
  exact directories_of_walk walked

/-- A file in a directory is read as before when it stays as it was, and reading it fails as before. -/
theorem read_congr (before : disk.Leads base) (after : next.Leads base)
    (same : next.at? (place base ++ [name]) = disk.at? (place base ++ [name])) :
    next.read (Path.join base name.text) = disk.read (Path.join base name.text) := by
  have resolves : next.resolve (Path.join base name.text) = disk.resolve (Path.join base name.text) :=
    resolve_congr before after
  rw [read, read, find, find, resolves]
  cases resolved : disk.resolve (Path.join base name.text) with
  | error error => rfl
  | ok found =>
    obtain rfl : found = place base ++ [name] := (resolve_place resolved).trans (Path.place_join_text base name)
    simp only [bind, Except.bind, same]

end Disk

namespace Path

theorem join_of_open {base rest : String} (there : base ≠ "") (opened : base.toList.getLast? ≠ some '/')
    (relative : rest.toList.head? ≠ some '/') : join base rest = base ++ "/" ++ rest := by
  rw [join, if_neg relative, if_neg (not_or.mpr ⟨there, opened⟩)]

/-- What is put behind a path that ends with a file name stands behind one slash. -/
theorem join_join_text (data : String) (folder name : FileName) :
    join (join data folder.text) name.text = join data folder.text ++ "/" ++ name.text := by
  have characters : (join data folder.text).toList = stem data ++ folder.text.toList :=
    toList_join (head_ne_slash (not_mem_of_proper folder))
  have some : folder.text.toList ≠ [] := by
    intro empty
    have proper := folder.proper
    rw [String.toList_eq_nil_iff.mp empty] at proper
    exact absurd proper (by decide)
  refine join_of_open ?_ ?_ (head_ne_slash (not_mem_of_proper name))
  · intro empty
    rw [empty] at characters
    exact some (List.append_eq_nil_iff.mp characters.symm).2
  · rw [characters, List.getLast?_append_of_ne_nil _ some]
    exact fun slash => not_mem_of_proper folder (List.mem_of_getLast? slash)

theorem spareName_inj {first second : String} {plainFirst : Plain first} {plainSecond : Plain second}
    (same : spareName plainFirst = spareName plainSecond) : first = second :=
  (String.append_left_inj ".tmp").mp (congrArg FileName.text same)

end Path

/-- A save does nothing unless the way to the file that is written first is there. -/
theorem JsonFile.save_idle_or_resolves {path : String} {value : Json} {fault : Option StoreFault} {disk next : Disk}
    {result : Except StoreError Unit} (saved : save path value fault disk = (next, result)) :
    next = disk ∨ disk.resolve (temporary path) = .ok (place (temporary path)) := by
  rw [save] at saved
  split at saved
  · exact .inl (Prod.mk.inj saved).1.symm
  · split at saved
    · exact .inl (Prod.mk.inj saved).1.symm
    · next wrote => exact .inr (Disk.write_eq_ok wrote).1

namespace ArtifactStore

variable {artifact : Artifact} {directory : String} {fault : Option StoreFault} {disk next : Disk}
  {other : ArtifactStore} {result : Except StoreError Unit}

theorem temporary_artifactPath (directory : String) {id : ArtifactId} (plain : Plain id) :
    JsonFile.temporary (artifactPath directory id) = Path.join directory (spareName plain).text :=
  Path.temporary_recordPath directory plain

/-- A put does nothing unless the directory is there, and all those on the way to it. -/
theorem put_idle_or_leads (plain : Plain artifact.id)
    (done : (ArtifactStore.file directory).put artifact fault disk = (next, other, result)) :
    next = disk ∨ disk.Leads directory := by
  rw [put.eq_def] at done
  dsimp only at done
  split at done
  · exact .inl (Prod.mk.inj done).1.symm
  · generalize saved : JsonFile.save (artifactPath directory artifact.id) artifact.encode _ disk = pair at done
    obtain ⟨written, saving⟩ := pair
    obtain ⟨rfl, -, -⟩ := by simpa using done
    refine (JsonFile.save_idle_or_resolves saved).imp_right fun resolved => ?_
    rw [temporary_artifactPath directory plain] at resolved
    exact Disk.leads_of_resolve resolved

/-- A put leaves all other files of the directory as they were, however they are read. -/
theorem read_of_put (plain : Plain artifact.id)
    (done : (ArtifactStore.file directory).put artifact fault disk = (next, other, result)) {name : FileName}
    (final : name ≠ recordName plain) (spare : name ≠ spareName plain) :
    next.read (Path.join directory name.text) = disk.read (Path.join directory name.text) := by
  rcases put_idle_or_leads plain done with rfl | leads
  · rfl
  · obtain ⟨-, touches⟩ := put_file done
    refine Disk.read_congr leads (leads.touch touches) (touches.others _ ?_ ?_)
    · rw [Path.place_recordPath _ plain]
      exact fun same => final (List.cons.inj (List.append_cancel_left same)).1
    · rw [Path.place_temporary _ plain]
      exact fun same => spare (List.cons.inj (List.append_cancel_left same)).1

/-- These are the paths that a put of an artifact writes to. -/
def putPaths (directory : String) (id : ArtifactId) : List String :=
  [artifactPath directory id, JsonFile.temporary (artifactPath directory id)]

/-- An id is housed in a directory when it names a direct child of the directory, and a lookup reads that file and
nothing else. -/
structure Housed (directory : String) (id : ArtifactId) : Prop where
  path : artifactPath directory id = directory ++ "/" ++ id ++ ".json"
  spare : JsonFile.temporary (artifactPath directory id) = directory ++ "/" ++ id ++ ".tmp"
  child : ∃ name : FileName, name.text = id ++ ".json" ∧
    place (artifactPath directory id) = place directory ++ [name] ∧
      ∀ disk found, (ArtifactStore.file directory).get id none disk = .ok (some found) →
        ∃ octets, disk.at? (place directory ++ [name]) = some (.file octets)
  only : ∀ first second : Disk,
    first.read (artifactPath directory id) = second.read (artifactPath directory id) →
      (ArtifactStore.file directory).get id none first = (ArtifactStore.file directory).get id none second

section Lookup

variable {id : ArtifactId} {data : String}

theorem get_of_safe (safe : isSafeId id = true) (directory : String) (disk : Disk) :
    (ArtifactStore.file directory).get id none disk =
      JsonFile.load Artifact.decode (artifactPath directory id) disk := by
  rw [get.eq_def]
  dsimp only
  rw [if_pos safe]

theorem get_congr (safe : isSafeId id = true) {directory : String} {first second : Disk}
    (same : first.read (artifactPath directory id) = second.read (artifactPath directory id)) :
    (ArtifactStore.file directory).get id none first = (ArtifactStore.file directory).get id none second := by
  rw [get_of_safe safe, get_of_safe safe, JsonFile.load, JsonFile.load, same]

theorem get_of_refused (refused : isSafeId id = false) (directory : String) (disk : Disk) :
    (ArtifactStore.file directory).get id none disk = .ok none := by
  rw [get.eq_def]
  dsimp only
  rw [if_neg (by simp [refused])]

theorem housed_of_safe (safe : isSafeId id = true) (data : String) : Housed (Path.join data folder.text) id where
  path := by
    have text := Path.join_join_text data folder (recordName (Path.plain_of_safe safe))
    rw [artifactPath]
    exact text.trans String.append_assoc.symm
  spare := by
    have plain := Path.plain_of_safe safe
    rw [temporary_artifactPath _ plain, Path.join_join_text]
    exact String.append_assoc.symm
  child := by
    have plain := Path.plain_of_safe safe
    have child := Path.place_recordPath (Path.join data folder.text) plain
    refine ⟨recordName plain, rfl, child, fun disk found got => ?_⟩
    rw [get_of_safe safe] at got
    rw [← child]
    exact JsonFile.file_of_load got
  only _ _ := get_congr safe

/-- An id is turned away without a look at the disk, or it is housed. -/
theorem turned_away_or_housed (data : String) (id : ArtifactId) :
    (isSafeId id = false ∧ ∀ disk, (ArtifactStore.file (Path.join data folder.text)).get id none disk = .ok none) ∨
      (isSafeId id = true ∧ Housed (Path.join data folder.text) id) := by
  cases safe : isSafeId id with
  | false => exact .inl ⟨rfl, get_of_refused safe _⟩
  | true => exact .inr ⟨rfl, housed_of_safe safe data⟩

/-- What was put under a safe id is found there. -/
theorem found_of_put {directory : String} (safe : isSafeId artifact.id = true)
    (done : (ArtifactStore.file directory).put artifact fault disk = (next, other, .ok ())) :
    next.read (artifactPath directory artifact.id) = .ok (JsonFile.content artifact.encode) ∧
      (ArtifactStore.file directory).get artifact.id none next ≠ .ok none ∧
      (artifact.Keepable → (ArtifactStore.file directory).get artifact.id none next = .ok (some artifact.reread)) := by
  obtain ⟨rfl, -⟩ := put_file done
  have has : (ArtifactStore.file directory).Has artifact next := has_put done
  refine ⟨has, fun missing => ?_, fun keepable => has.get keepable safe⟩
  have read : next.read (artifactPath directory artifact.id) = .ok (JsonFile.content artifact.encode) := has
  rw [get_of_safe safe, JsonFile.load, read] at missing
  dsimp only at missing
  split at missing
  · simp at missing
  · split at missing <;> simp at missing

end Lookup

section Frame

variable {first second : ArtifactId}

theorem places_putPaths (directory : String) {id : ArtifactId} (plain : Plain id) :
    (putPaths directory id).map place =
      [place directory ++ [recordName plain], place directory ++ [spareName plain]] := by
  have final : place (artifactPath directory id) = place directory ++ [recordName plain] :=
    Path.place_recordPath directory plain
  rw [putPaths, List.map_cons, List.map_cons, List.map_nil, final, temporary_artifactPath directory plain,
    Path.place_join_text]

/-- The paths of two ids lead to four different places. -/
theorem places_nodup (directory : String) (plainFirst : Plain first) (plainSecond : Plain second)
    (differ : first ≠ second) : ((putPaths directory first ++ putPaths directory second).map place).Nodup := by
  have names : [recordName plainFirst, spareName plainFirst, recordName plainSecond, spareName plainSecond].Nodup := by
    have finals : recordName plainFirst ≠ recordName plainSecond := fun same => differ (Path.recordName_inj same)
    have spares : spareName plainFirst ≠ spareName plainSecond := fun same => differ (Path.spareName_inj same)
    simp only [List.nodup_cons, List.mem_cons, List.not_mem_nil, or_false, not_or, not_false_eq_true, List.nodup_nil,
      and_true]
    exact ⟨⟨Path.recordName_ne_spareName _ _, finals, Path.recordName_ne_spareName _ _⟩,
      ⟨(Path.recordName_ne_spareName _ _).symm, spares⟩, Path.recordName_ne_spareName _ _⟩
  rw [List.map_append, places_putPaths directory plainFirst, places_putPaths directory plainSecond]
  exact names.map fun name other same => (List.cons.inj (List.append_cancel_left same)).1

/-- A put changes nothing but its own two places, and other ids are looked up as before. -/
theorem others_undisturbed (safe : isSafeId artifact.id = true)
    (done : (ArtifactStore.file directory).put artifact fault disk = (next, other, result)) :
    (∀ elsewhere ∉ (putPaths directory artifact.id).map place, next.at? elsewhere = disk.at? elsewhere) ∧
      ∀ id ≠ artifact.id,
        (ArtifactStore.file directory).get id none next = (ArtifactStore.file directory).get id none disk := by
  have own := Path.plain_of_safe safe
  refine ⟨fun elsewhere apart => ?places, fun id differ => ?lookups⟩
  case places =>
    obtain ⟨-, touches⟩ := put_file done
    simp only [putPaths, List.map_cons, List.map_nil, List.mem_cons, List.not_mem_nil, or_false, not_or] at apart
    exact touches.others elsewhere apart.1 apart.2
  case lookups =>
    cases safe : isSafeId id with
    | false => rw [get_of_refused safe, get_of_refused safe]
    | true =>
      have plain := Path.plain_of_safe safe
      have final : recordName plain ≠ recordName own := fun same => differ (Path.recordName_inj same)
      have same := read_of_put own done final (Path.recordName_ne_spareName plain own)
      exact get_congr safe same

end Frame

section Generated

/-- A text is hyphenated when it is made of five groups of hexadecimal digits in lower case, with 8, 4, 4, 4 and 12 of
them, and hyphens between the groups. -/
def Hyphenated (text : String) : Prop :=
  ∃ groups : List String, groups.map String.length = [8, 4, 4, 4, 12] ∧
    (∀ group ∈ groups, ∀ character ∈ group.toList, ∃ value < 16, character = Text.Hex.digit value) ∧
      text = "-".intercalate groups

theorem mem_intercalate {separator : List Char} {parts : List (List Char)} {character : Char}
    (member : character ∈ separator.intercalate parts) : character ∈ separator ∨ ∃ part ∈ parts, character ∈ part := by
  induction parts with
  | nil => simp [List.intercalate] at member
  | cons part parts inductionHypothesis =>
    cases parts with
    | nil => exact .inr ⟨part, List.mem_cons_self, by simpa [List.intercalate] using member⟩
    | cons next rest =>
      have split : character ∈ part ∨ character ∈ separator ∨ character ∈ separator.intercalate (next :: rest) := by
        simpa [List.intercalate] using member
      rcases split with first | between | later
      · exact .inr ⟨part, List.mem_cons_self, first⟩
      · exact .inl between
      · exact (inductionHypothesis later).imp_right fun ⟨found, there, inside⟩ =>
          ⟨found, List.mem_cons_of_mem _ there, inside⟩

theorem isSafeId_of_hyphenated {text : String} (hyphenated : Hyphenated text) : isSafeId text = true := by
  obtain ⟨groups, lengths, digits, rfl⟩ := hyphenated
  have hex : ∀ value < 16, (Text.Hex.digit value).isAlphanum = true := by decide
  have allowed : ∀ character ∈ ("-".intercalate groups).toList,
      (character.isAlphanum || character = '-') = true := by
    intro character member
    rw [String.toList_intercalate] at member
    rcases mem_intercalate member with hyphen | ⟨part, inside, there⟩
    · obtain rfl : character = '-' := by simpa using hyphen
      rfl
    · obtain ⟨group, listed, rfl⟩ := List.mem_map.mp inside
      obtain ⟨value, small, rfl⟩ := digits group listed character there
      rw [hex value small, Bool.true_or]
  have nonempty : "-".intercalate groups ≠ "" := by
    intro empty
    have none := congrArg String.toList empty
    match groups with
    | [] => simp at lengths
    | [_] => simp at lengths
    | _ :: _ :: _ => simp [List.intercalate] at none
  rw [isSafeId, Bool.and_eq_true]
  exact ⟨decide_eq_true nonempty, List.all_eq_true.mpr allowed⟩

/-- This function writes octets as digits, with the bits fixed that tell a random id: some of the seventh octet and of
the ninth. -/
def randomDigits (octets : List UInt8) : List Char :=
  ((octets.modify 6 fun octet => octet &&& 0x0f ||| 0x40).modify 8 fun octet => octet &&& 0x3f ||| 0x80).flatMap
    Text.Hex.octet

/-- This function cuts digits into the groups of a hyphenated text. -/
def groupsOf (digits : List Char) : List (List Char) :=
  [digits.take 8, (digits.drop 8).take 4, (digits.drop 12).take 4, (digits.drop 16).take 4, digits.drop 20]

/-- This function writes sixteen octets as a random id. -/
def randomId (octets : List UInt8) : ArtifactId :=
  "-".intercalate ((groupsOf (randomDigits octets)).map String.ofList)

theorem length_randomDigits (octets : List UInt8) : (randomDigits octets).length = 2 * octets.length := by
  simp [randomDigits, Text.Hex.octet, List.length_flatMap, Nat.mul_comm]

theorem exists_digit_of_mem {octets : List UInt8} {character : Char} (member : character ∈ randomDigits octets) :
    ∃ value < 16, character = Text.Hex.digit value := by
  obtain ⟨octet, -, there⟩ := List.mem_flatMap.mp member
  have small : octet.toNat < 256 := octet.toNat_lt
  rcases List.mem_pair.mp there with rfl | rfl
  · exact ⟨octet.toNat / 16, by omega, rfl⟩
  · exact ⟨octet.toNat % 16, by omega, rfl⟩

theorem mem_of_mem_groupsOf {digits group : List Char} {character : Char} (listed : group ∈ groupsOf digits)
    (member : character ∈ group) : character ∈ digits := by
  simp only [groupsOf, List.mem_cons, List.not_mem_nil, or_false] at listed
  rcases listed with rfl | rfl | rfl | rfl | rfl
  · exact List.mem_of_mem_take member
  · exact List.mem_of_mem_drop (List.mem_of_mem_take member)
  · exact List.mem_of_mem_drop (List.mem_of_mem_take member)
  · exact List.mem_of_mem_drop (List.mem_of_mem_take member)
  · exact List.mem_of_mem_drop member

theorem hyphenated_randomId {octets : List UInt8} (length : octets.length = 16) : Hyphenated (randomId octets) := by
  have count : (randomDigits octets).length = 32 := by rw [length_randomDigits, length]
  refine ⟨(groupsOf (randomDigits octets)).map String.ofList, ?lengths, ?digits, by rw [randomId]⟩
  case lengths => simp [groupsOf, count]
  case digits =>
    intro group listed character there
    obtain ⟨characters, inside, rfl⟩ := List.mem_map.mp listed
    rw [String.toList_ofList] at there
    exact exists_digit_of_mem (mem_of_mem_groupsOf inside there)

end Generated

/-- A client that asks for an id that is not safe, in whatever spelling, is told that there is no such artifact. -/
theorem answerAt_of_refused {service : Service} {directory part : String} {id : ArtifactId} (request : Request)
    (stored : service.schedule.world.artifacts = .file directory) (spelled : Http.pathText? part = some id)
    (refused : isSafeId id = false) (calm : Table.get? .artifactGet service.schedule.faults = none) :
    service.answerAt request (.artifact part) =
      (.ofError (.notFound ("Artifact " ++ id ++ " not found")), service) := by
  have called : service.schedule.callStore .artifactGet = (none, service.schedule) := by
    rw [Schedule.callStore, calm]
  have found : service.schedule.artifact? id = (.ok none, service.schedule) := by
    simp only [Schedule.artifact?, called, stored, get_of_refused refused]
  simp only [Service.answerAt, spelled, Service.artifact, found, Http.answerArtifact]

/-- Ids of artifacts neither lead out of the directory of the artifacts nor meet in it. An id that a client gives is
turned away without a look at the disk, or it names a direct child of the directory, and a lookup reads that. Every
generated id is of the second kind, and what was put under it is found. Two such ids have four paths that lead to
four places, and a put of one leaves all the rest of the disk, and every other lookup, as it was. -/
theorem ids_stay_apart (data : String) {fresh : List UInt8 → ArtifactId}
    (hyphenated : ∀ octets, octets.length = 16 → Hyphenated (fresh octets)) :
    let directory := Path.join data "artifacts"
    let store := ArtifactStore.file directory
    (∀ before disk opened, openBelow data before = (disk, .ok opened) → opened = store) ∧
    (∀ id, (isSafeId id = false ∧ (∀ disk, store.get id none disk = .ok none) ∧
        ∀ (service : Service) (request : Request) (part : String), service.schedule.world.artifacts = store →
          Http.pathText? part = some id → Table.get? .artifactGet service.schedule.faults = none →
            service.answerAt request (.artifact part) =
              (.ofError (.notFound ("Artifact " ++ id ++ " not found")), service)) ∨
      (isSafeId id = true ∧ Housed directory id)) ∧
    (∀ octets, octets.length = 16 → isSafeId (fresh octets) = true ∧ Housed directory (fresh octets)) ∧
    (∀ octets, octets.length = 16 → ∀ artifact fault disk next other, artifact.id = fresh octets →
      store.put artifact fault disk = (next, other, .ok ()) →
        next.read (artifactPath directory (fresh octets)) = .ok (JsonFile.content artifact.encode) ∧
          store.get (fresh octets) none next ≠ .ok none ∧
            (artifact.Keepable → store.get (fresh octets) none next = .ok (some artifact.reread))) ∧
    (∀ first second, isSafeId first = true → isSafeId second = true → first ≠ second →
      (putPaths directory first ++ putPaths directory second).Nodup ∧
        ((putPaths directory first ++ putPaths directory second).map place).Nodup) ∧
    (∀ artifact fault disk next other result, isSafeId artifact.id = true →
      store.put artifact fault disk = (next, other, result) →
        (∀ elsewhere ∉ (putPaths directory artifact.id).map place, next.at? elsewhere = disk.at? elsewhere) ∧
          ∀ id ≠ artifact.id, store.get id none next = store.get id none disk) := by
  intro directory store
  have generated (octets : List UInt8) (length : octets.length = 16) : isSafeId (fresh octets) = true :=
    isSafeId_of_hyphenated (hyphenated octets length)
  refine ⟨fun before disk opened done => (openAt_eq_ok done).1, fun id => ?kinds,
    fun octets length => ⟨generated octets length, housed_of_safe (generated octets length) data⟩,
    fun octets length artifact fault disk next other named done => ?found,
    fun first second safeFirst safeSecond differ => ?apart,
    fun artifact fault disk next other result safe done => others_undisturbed safe done⟩
  case kinds =>
    refine (turned_away_or_housed data id).imp_left fun ⟨refused, missing⟩ => ⟨refused, missing, ?_⟩
    exact fun service request part stored spelled calm => answerAt_of_refused request stored spelled refused calm
  case found =>
    rw [← named]
    exact found_of_put (named ▸ generated octets length) done
  case apart =>
    have places : ((putPaths directory first ++ putPaths directory second).map place).Nodup :=
      places_nodup directory (Path.plain_of_safe safeFirst) (Path.plain_of_safe safeSecond) differ
    exact ⟨List.Nodup.of_map place places, places⟩

/-- This row of octets is one that an id may be drawn from. -/
def drawnOctets : List UInt8 :=
  [0x67, 0xe5, 0x50, 0x44, 0x10, 0xb1, 0x42, 0x6f, 0x92, 0x47, 0xbb, 0x68, 0x0e, 0x5f, 0xe0, 0xc8]

/-- This artifact was made under the id that is drawn from them. -/
def drawnArtifact : Artifact :=
  .ofWasm "67e55044-10b1-426f-9247-bb680e5fe0c8" .sample "Token" [0, 97, 115, 109] []

theorem put_drawnArtifact :
    ∃ next, (ArtifactStore.file (Path.join "data" "artifacts")).put drawnArtifact none bareDisk =
      (next, .file (Path.join "data" "artifacts"), .ok ()) := by
  have free : bareDisk.at? (place (artifactPath (Path.join "data" "artifacts") drawnArtifact.id)) = none := by rfl
  have freeSpare :
      bareDisk.at? (place (JsonFile.temporary (artifactPath (Path.join "data" "artifacts") drawnArtifact.id))) =
        none := by rfl
  obtain ⟨next, saved⟩ := JsonFile.save_of_resolve drawnArtifact.encode
    (show bareDisk.resolve (artifactPath (Path.join "data" "artifacts") drawnArtifact.id) = _ by rfl) (by rfl)
    (by simp [free]) (by simp [freeSpare]) (by rfl) (by rfl)
  exact ⟨next, by simp only [put.eq_def, saved]⟩

/-- The artifact is put and found under its id, while another id and one that points elsewhere are not touched. -/
theorem ids_stay_apart_drawn :
    let directory := Path.join "data" "artifacts"
    let store := ArtifactStore.file directory
    (∀ disk, store.get "../jobs/x" none disk = .ok none) ∧ Housed directory drawnArtifact.id ∧
      (putPaths directory drawnArtifact.id ++ putPaths directory "first").Nodup ∧
      ∃ next, store.put drawnArtifact none bareDisk = (next, store, .ok ()) ∧
        store.get drawnArtifact.id none next = .ok (some drawnArtifact.reread) ∧
          store.get "first" none next = store.get "first" none bareDisk := by
  intro directory store
  obtain ⟨-, kinds, housed, found, apart, others⟩ := ids_stay_apart "data" fun _ => hyphenated_randomId
  have named : drawnArtifact.id = randomId drawnOctets := by decide +kernel
  have safe : isSafeId drawnArtifact.id = true := named ▸ (housed drawnOctets rfl).1
  obtain ⟨next, stored⟩ := put_drawnArtifact
  refine ⟨?outside, named ▸ (housed drawnOctets rfl).2, ?paths, next, stored, ?found, ?other⟩
  case outside =>
    rcases kinds "../jobs/x" with ⟨-, missing, -⟩ | ⟨allowed, -⟩
    · exact missing
    · exact absurd allowed (by decide)
  case paths => exact (apart drawnArtifact.id "first" safe (by decide) (by decide)).1
  case found =>
    have keepable : drawnArtifact.Keepable := by simp [Artifact.Keepable, drawnArtifact, Artifact.ofWasm]
    rw [named]
    exact (found drawnOctets rfl drawnArtifact none bareDisk next _ named stored).2.2 keepable
  case other => exact (others drawnArtifact none bareDisk next _ _ safe stored).2 "first" (by decide)

end ArtifactStore

end ContractWorks
