import ContractWorks.Proofs.Job.Wire
import ContractWorks.Proofs.Storage.Disk
import ContractWorks.Proofs.Storage.Path
import ContractWorks.Storage.JsonFile

namespace ContractWorks.JsonFile

open Path (place)

/-- This is what a file holds in which a value was saved. -/
def content (value : Json) : ByteArray :=
  value.indented.toUTF8

/-- A save that touches a disk changes at most the file of a path and the one that it is first written to,
and never in place of a directory. -/
structure Touches (path : String) (disk next : Disk) : Prop where
  others : ∀ other, other ≠ place path → other ≠ place (temporary path) →
    next.at? other = disk.at? other
  directories : ∀ other, disk.at? other = some .directory → next.at? other = some .directory
  added : ∀ other, next.at? other = some .directory → disk.at? other = some .directory

theorem Touches.refl (path : String) (disk : Disk) : Touches path disk disk :=
  ⟨fun _ _ _ => rfl, fun _ here => here, fun _ here => here⟩

theorem Touches.resolve {path : String} {disk next : Disk} (touches : Touches path disk next)
    {other : String} {found : Place} (resolved : disk.resolve other = .ok found) :
    next.resolve other = .ok found :=
  Disk.resolve_of_directories resolved fun visited _ here => touches.directories visited here

theorem touches_write {path : String} {disk next : Disk} {octets : ByteArray}
    (written : disk.write (temporary path) octets = .ok next) : Touches path disk next := by
  obtain ⟨_, free, effect⟩ := Disk.write_eq_ok written
  refine ⟨fun other _ differ => ?_, fun other here => ?_, fun other here => ?_⟩
  · rw [effect, if_neg differ]
  · have differ : other ≠ place (temporary path) := fun same => free (same ▸ here)
    rw [effect, if_neg differ, here]
  · rw [effect] at here
    split at here
    · simp at here
    · exact here

/-- A save that fails reports what the disk reports, and leaves the file of its path as it was. -/
theorem save_error {path : String} {value : Json} {fault : Option StoreFault} {disk next : Disk}
    {error : StoreError} (saved : save path value fault disk = (next, .error error)) :
    (∃ text, error = .io text) ∧ Touches path disk next ∧
      (place path ≠ place (temporary path) →
        next.at? (place path) = disk.at? (place path)) := by
  rw [save] at saved
  split at saved
  · obtain ⟨rfl, failed⟩ := Prod.mk.inj saved
    exact ⟨⟨_, (Except.error.inj failed).symm⟩, .refl path disk, fun _ => rfl⟩
  · split at saved
    · obtain ⟨rfl, failed⟩ := Prod.mk.inj saved
      exact ⟨⟨_, (Except.error.inj failed).symm⟩, .refl path disk, fun _ => rfl⟩
    · next written wrote =>
      have touches := touches_write wrote
      have kept : place path ≠ place (temporary path) →
          written.at? (place path) = disk.at? (place path) := by
        intro differ
        rw [(Disk.write_eq_ok wrote).2.2, if_neg differ]
      split at saved
      · obtain ⟨rfl, failed⟩ := Prod.mk.inj saved
        exact ⟨⟨_, (Except.error.inj failed).symm⟩, touches, kept⟩
      · split at saved
        · obtain ⟨rfl, failed⟩ := Prod.mk.inj saved
          exact ⟨⟨_, (Except.error.inj failed).symm⟩, touches, kept⟩
        · simp at saved

/-- A save that succeeds puts the text of the value into the file of its path. -/
theorem save_ok {path : String} {value : Json} {fault : Option StoreFault} {disk next : Disk}
    (saved : save path value fault disk = (next, .ok ())) :
    Touches path disk next ∧ next.read path = .ok (content value) ∧
      (place path ≠ place (temporary path) → next.at? (place (temporary path)) = none) := by
  rw [save] at saved
  split at saved
  · simp at saved
  · split at saved
    · simp at saved
    · next written wrote =>
      split at saved
      · simp at saved
      · split at saved
        · simp at saved
        · next moved renamed =>
          obtain ⟨rfl, _⟩ := Prod.mk.inj saved
          have touches := touches_write wrote
          obtain ⟨_, _, effect⟩ := Disk.write_eq_ok wrote
          obtain ⟨octets, standing, resolved, free, moves⟩ := Disk.rename_eq_ok renamed
          have same : octets = content value := by
            rw [effect, if_pos rfl, Option.some.injEq, DiskEntry.file.injEq] at standing
            exact standing.symm
          have all : Touches path disk moved := by
            refine ⟨fun other first second => ?_, fun other here => ?_, fun other here => ?_⟩
            · rw [moves, if_neg first, if_neg second, touches.others other first second]
            · have there := touches.directories other here
              have first : other ≠ place path := fun same => free (same ▸ there)
              have second : other ≠ place (temporary path) := by
                intro same
                rw [same, standing] at there
                simp at there
              rw [moves, if_neg first, if_neg second, there]
            · rw [moves] at here
              split at here
              · simp at here
              · split at here
                · simp at here
                · exact touches.added other here
          refine ⟨all, ?_, fun differ => ?_⟩
          · have kept : moved.resolve path = .ok (place path) := by
              refine Disk.resolve_of_directories resolved fun visited _ here => ?_
              exact all.directories visited (touches.added visited here)
            exact Disk.read_eq_ok_iff.mpr ⟨kept, by rw [moves, if_pos rfl, same]⟩
          · rw [moves, if_neg (Ne.symm differ), if_pos rfl]

/-- Nothing keeps a value from being saved where both of its files can be written. -/
theorem save_of_resolve {path : String} {disk : Disk} (value : Json)
    (resolved : disk.resolve path = .ok (place path))
    (spare : disk.resolve (temporary path) = .ok (place (temporary path)))
    (free : disk.at? (place path) ≠ some .directory)
    (freeSpare : disk.at? (place (temporary path)) ≠ some .directory)
    (above : disk.at? (place path).dropLast = some .directory)
    (aboveSpare : disk.at? (place (temporary path)).dropLast = some .directory) :
    ∃ next, save path value none disk = (next, .ok ()) := by
  obtain ⟨written, wrote⟩ := Disk.write_of_resolve (content value) spare freeSpare aboveSpare
  have touches := touches_write wrote
  obtain ⟨_, _, effect⟩ := Disk.write_eq_ok wrote
  have standing : written.at? (place (temporary path)) = some (.file (content value)) := by
    rw [effect, if_pos rfl]
  obtain ⟨moved, renamed⟩ := Disk.rename_of_resolve (touches.resolve spare) standing
    (touches.resolve resolved) (fun here => free (touches.added _ here))
    (touches.directories _ above)
  refine ⟨moved, ?_⟩
  rw [save, if_neg (by simp)]
  have wrote' : disk.write (temporary path) value.indented.toUTF8 = .ok written := wrote
  rw [wrote']
  simp [renamed]

/-- A file is loaded as what its text is decoded as. -/
theorem load_of_read {α : Type} {decode : Decoder α} {path : String} {disk : Disk} {value : Json}
    {decoded : α} (read : disk.read path = .ok (content value))
    (decodes : decode (Draft.read value.indented) = .ok decoded) :
    load decode path disk = .ok (some decoded) := by
  rw [load, read]
  simp only [content, Text.Utf8.fromUTF8?_toUTF8, decodes]

/-- What is loaded comes from a file. -/
theorem file_of_load {α : Type} {decode : Decoder α} {path : String} {disk : Disk} {decoded : α}
    (loaded : load decode path disk = .ok (some decoded)) :
    ∃ octets, disk.at? (place path) = some (.file octets) := by
  rw [load] at loaded
  split at loaded
  · simp at loaded
  · simp at loaded
  · next octets read => exact ⟨octets, (Disk.read_eq_ok_iff.mp read).2⟩

end ContractWorks.JsonFile

namespace ContractWorks

namespace Path

theorem place_join_text (base : String) (name : FileName) :
    place (join base name.text) = place base ++ [name] := by
  rw [place, parts_join_text, List.foldl_append]
  rfl

theorem place_recordPath (directory : String) {id : JobId} (plain : Plain id) :
    place (JobStore.recordPath directory id) = place directory ++ [recordName plain] :=
  place_join_text directory (recordName plain)

theorem place_temporary (directory : String) {id : JobId} (plain : Plain id) :
    place (JsonFile.temporary (JobStore.recordPath directory id)) =
      place directory ++ [spareName plain] := by
  rw [temporary_recordPath directory plain, place_join_text]

theorem place_recordPath_ne_temporary (directory : String) {id : JobId} (plain : Plain id) :
    place (JobStore.recordPath directory id) ≠
      place (JsonFile.temporary (JobStore.recordPath directory id)) := by
  rw [place_recordPath directory plain, place_temporary directory plain]
  intro same
  have names := List.append_cancel_left same
  exact recordName_ne_spareName plain plain (List.cons.inj names).1

theorem utf8ByteSize_join (base name : String) :
    (join base name).utf8ByteSize ≤ base.utf8ByteSize + name.utf8ByteSize + 1 := by
  rw [join]
  split
  · omega
  · split
    · rw [String.utf8ByteSize_append]
      omega
    · have slash : "/".utf8ByteSize = 1 := by decide
      rw [String.utf8ByteSize_append, String.utf8ByteSize_append]
      omega

end Path

namespace Disk

theorem partsOf_eq_ok_iff {path : String} :
    partsOf path = .ok (Path.parts path) ↔ '\x00' ∉ path.toList ∧ path.utf8ByteSize ≤ 4095 := by
  rw [partsOf]
  by_cases zero : '\x00' ∈ path.toList
  · simp [zero]
  · by_cases short : path.utf8ByteSize ≤ 4095 <;> simp [zero, short]

/-- A short name of no zero can follow a path. -/
theorem partsOf_join {base : String} (name : FileName) (taken : partsOf base = .ok (Path.parts base))
    (zero : '\x00' ∉ name.text.toList) (short : base.utf8ByteSize + name.text.utf8ByteSize + 1 ≤ 4095) :
    partsOf (Path.join base name.text) = .ok (Path.parts base ++ [.into name]) := by
  have clean := (partsOf_eq_ok_iff.mp taken).1
  have size := Path.utf8ByteSize_join base name.text
  rw [← Path.parts_join_text]
  refine partsOf_eq_ok_iff.mpr ⟨?_, by omega⟩
  rw [Path.toList_join (Path.head_ne_slash (Path.not_mem_of_proper name)), List.mem_append, not_or]
  refine ⟨?_, zero⟩
  rw [Path.stem]
  split
  · exact clean
  · rw [List.mem_append, not_or]
    exact ⟨clean, by decide⟩

/-- A short name of no zero that fits leads to a place of its own in a directory. -/
theorem resolve_join {disk : Disk} {base : String} (name : FileName)
    (resolved : disk.resolve base = .ok (Path.place base)) (here : disk.at? (Path.place base) = some .directory)
    (zero : '\x00' ∉ name.text.toList) (fits : Disk.fits name = true)
    (short : base.utf8ByteSize + name.text.utf8ByteSize + 1 ≤ 4095) :
    disk.resolve (Path.join base name.text) = .ok (Path.place (Path.join base name.text)) := by
  obtain ⟨taken, walked⟩ := resolve_eq_ok_iff.mp resolved
  have parts := partsOf_join name taken zero short
  rw [← Path.parts_join_text] at parts
  refine resolve_eq_ok_iff.mpr ⟨parts, ?_⟩
  rw [Path.parts_join_text, Path.place_join_text]
  exact walk_append walked here fits

end Disk

namespace JobStore

open JsonFile (content)
open Path (Plain place recordName spareName)

/-- The files of a directory mirror a table of records when each record stands in the file of its id, and when
every file that counts as a record is one of these. -/
structure Mirrors (directory : String) (records : Table JobId JobRecord) (disk : Disk) : Prop where
  distinct : Table.Distinct records
  keyed : ∀ {id record}, Table.get? id records = some record → record.id = id ∧ Plain id
  resolved : disk.resolve directory = .ok (place directory)
  here : disk.at? (place directory) = some .directory
  written : ∀ {id record}, Table.get? id records = some record →
    disk.read (recordPath directory id) = .ok (content record.encode)
  known : ∀ {name : FileName} {octets}, Path.extension? name.text = some "json" →
    disk.at? (place directory ++ [name]) = some (.file octets) →
      ∃ id, Table.get? id records ≠ none ∧ name.text = id ++ ".json"

variable {directory : String} {records : Table JobId JobRecord} {disk next : Disk}

/-- A record that is mirrored is loaded from its file. -/
theorem Mirrors.load_some (mirrors : Mirrors directory records disk) {id : JobId} {record : JobRecord}
    (found : Table.get? id records = some record) :
    JsonFile.load JobRecord.decode (recordPath directory id) disk = .ok (some record) :=
  JsonFile.load_of_read (mirrors.written found) record.decode_read_indented

/-- Where no record is kept, none is loaded. -/
theorem Mirrors.load_none (mirrors : Mirrors directory records disk) {id : JobId} (plain : Plain id)
    (missing : Table.get? id records = none) (record : JobRecord) :
    JsonFile.load JobRecord.decode (recordPath directory id) disk ≠ .ok (some record) := by
  intro loaded
  obtain ⟨octets, standing⟩ := JsonFile.file_of_load loaded
  rw [Path.place_recordPath directory plain] at standing
  obtain ⟨other, kept, named⟩ := mirrors.known (Path.extension?_recordName plain) standing
  have plainOther : Plain other := by
    obtain ⟨record, found⟩ := Option.ne_none_iff_exists'.mp kept
    exact (mirrors.keyed found).2
  have same : recordName plain = recordName plainOther := by
    have text : (recordName plain).text = (recordName plainOther).text := named
    cases first : recordName plain
    cases second : recordName plainOther
    simp_all
  rw [← Path.recordName_inj same] at kept
  exact kept missing

/-- What outlives a process is what the process keeps. -/
theorem Mirrors.durable (mirrors : Mirrors directory records disk) {id : JobId} (plain : Plain id) :
    durable? (.file directory records) disk id = Table.get? id records := by
  rw [durable?.eq_def]
  dsimp only
  cases found : Table.get? id records with
  | some record => rw [mirrors.load_some found]
  | none =>
    have never := mirrors.load_none plain found
    split
    · next loaded result =>
      cases loaded with
      | none => rfl
      | some record => exact absurd result (never record)
    · rfl

/-- A change of the disk that leaves the way to the directory and the files of records alone leaves the mirror
as it is. -/
theorem Mirrors.transport (mirrors : Mirrors directory records disk)
    (way : ∀ visited ∈ Path.visits directory,
      disk.at? visited = some .directory → next.at? visited = some .directory)
    (files : ∀ name : FileName, Path.extension? name.text = some "json" → ∀ octets,
      next.at? (place directory ++ [name]) = some (.file octets) ↔
        disk.at? (place directory ++ [name]) = some (.file octets)) :
    Mirrors directory records next where
  distinct := mirrors.distinct
  keyed := mirrors.keyed
  resolved := Disk.resolve_of_directories mirrors.resolved way
  here := way _ (Path.place_mem_visits directory) mirrors.here
  written := by
    intro id record found
    have plain := (mirrors.keyed found).2
    obtain ⟨resolved, standing⟩ := Disk.read_eq_ok_iff.mp (mirrors.written found)
    have path := Path.place_recordPath directory plain
    refine Disk.read_eq_ok_iff.mpr ⟨Disk.resolve_of_directories resolved ?_, ?_⟩
    · intro visited member there
      have parts : Path.parts (recordPath directory id) =
          Path.parts directory ++ [.into (recordName plain)] :=
        Path.parts_join_text directory (recordName plain)
      rw [Path.visits, parts] at member
      rcases Path.through_append _ _ _ visited member with before | last
      · exact way visited before there
      · have same : visited = place (recordPath directory id) := last.trans path.symm
        rw [same, standing] at there
        simp at there
    · rw [path] at standing ⊢
      exact (files _ (Path.extension?_recordName plain) _).mpr standing
  known := fun json standing => mirrors.known json ((files _ json _).mp standing)

/-- No file that counts as a record is the one that a record is first written to. -/
theorem ne_temporary {id : JobId} (plain : Plain id) {name : FileName}
    (json : Path.extension? name.text = some "json") :
    place directory ++ [name] ≠ place (JsonFile.temporary (recordPath directory id)) := by
  rw [Path.place_temporary directory plain]
  intro same
  rw [(List.cons.inj (List.append_cancel_left same)).1, Path.extension?_spareName plain] at json
  exact absurd json (by decide)

/-- A save that fails leaves the files as a mirror of the same records. -/
theorem Mirrors.of_failed (mirrors : Mirrors directory records disk) {id : JobId} (plain : Plain id)
    (touches : JsonFile.Touches (recordPath directory id) disk next)
    (kept : next.at? (place (recordPath directory id)) = disk.at? (place (recordPath directory id))) :
    Mirrors directory records next := by
  refine mirrors.transport (fun visited _ there => touches.directories visited there) ?_
  intro name json octets
  by_cases same : place directory ++ [name] = place (recordPath directory id)
  · rw [same, kept]
  · rw [touches.others _ same (ne_temporary plain json)]

/-- A save that succeeds makes the files a mirror of the records with the new one among them. -/
theorem Mirrors.of_saved (mirrors : Mirrors directory records disk) {record : JobRecord}
    (plain : Plain record.id) (touches : JsonFile.Touches (recordPath directory record.id) disk next)
    (read : next.read (recordPath directory record.id) = .ok (content record.encode)) :
    Mirrors directory (Table.insert record.id record records) next where
  distinct := mirrors.distinct.insert record.id record
  keyed := by
    intro id other found
    by_cases same : id = record.id
    · subst same
      rw [Table.get?_insert_self, Option.some.injEq] at found
      subst found
      exact ⟨rfl, plain⟩
    · rw [Table.get?_insert_of_ne same] at found
      exact mirrors.keyed found
  resolved := touches.resolve mirrors.resolved
  here := touches.directories _ mirrors.here
  written := by
    intro id other found
    by_cases same : id = record.id
    · subst same
      rw [Table.get?_insert_self, Option.some.injEq] at found
      subst found
      exact read
    · rw [Table.get?_insert_of_ne same] at found
      have plainOther := (mirrors.keyed found).2
      obtain ⟨resolved, standing⟩ := Disk.read_eq_ok_iff.mp (mirrors.written found)
      refine Disk.read_eq_ok_iff.mpr ⟨touches.resolve resolved, ?_⟩
      have json := Path.extension?_recordName plainOther
      rw [Path.place_recordPath directory plainOther] at standing ⊢
      rw [touches.others _ _ (ne_temporary plain json), standing]
      rw [Path.place_recordPath directory plain]
      intro names
      exact same (Path.recordName_inj (List.cons.inj (List.append_cancel_left names)).1)
  known := by
    intro name octets json standing
    by_cases same : place directory ++ [name] = place (recordPath directory record.id)
    · rw [Path.place_recordPath directory plain] at same
      obtain rfl := (List.cons.inj (List.append_cancel_left same)).1
      exact ⟨record.id, by rw [Table.get?_insert_self]; simp, rfl⟩
    · rw [touches.others _ same (ne_temporary plain json)] at standing
      obtain ⟨id, kept, named⟩ := mirrors.known json standing
      refine ⟨id, ?_, named⟩
      by_cases again : id = record.id
      · rw [again, Table.get?_insert_self]
        simp
      · rwa [Table.get?_insert_of_ne again]

/-- Putting a record keeps the mirror, whether or not it succeeds. -/
theorem Mirrors.put (mirrors : Mirrors directory records disk) {record : JobRecord}
    (plain : Plain record.id) {fault : Option StoreFault} {store : JobStore}
    {result : Except StoreError Unit}
    (done : (JobStore.file directory records).put record.id record fault disk = (next, store, result)) :
    (result = .ok () ∧ store = .file directory (Table.insert record.id record records) ∧
        Mirrors directory (Table.insert record.id record records) next) ∨
      ((∃ text, result = .error (.io text)) ∧ store = .file directory records ∧
        Mirrors directory records next) := by
  have apart := Path.place_recordPath_ne_temporary directory plain
  rw [JobStore.put] at done
  split at done
  · next saved =>
    obtain ⟨rfl, rfl, rfl⟩ := by simpa using done
    obtain ⟨touches, read, _⟩ := JsonFile.save_ok saved
    exact .inl ⟨rfl, rfl, mirrors.of_saved plain touches read⟩
  · next error saved =>
    obtain ⟨rfl, rfl, rfl⟩ := by simpa using done
    obtain ⟨⟨text, rfl⟩, touches, kept⟩ := JsonFile.save_error saved
    exact .inr ⟨⟨text, rfl⟩, rfl, mirrors.of_failed plain touches (kept apart)⟩

theorem append_json_inj {first second : String} (same : first ++ ".json" = second ++ ".json") :
    first = second := by
  have lists := congrArg String.toList same
  rw [String.toList_append, String.toList_append] at lists
  exact String.toList_inj.mp (List.append_cancel_right lists)

/-- A table is part of another one when all its records are in the other one. -/
def Within (inner outer : Table JobId JobRecord) : Prop :=
  ∀ {id record}, Table.get? id inner = some record → Table.get? id outer = some record

theorem Within.insert {inner outer : Table JobId JobRecord} (within : Within inner outer) {id : JobId}
    {record : JobRecord} (found : Table.get? id outer = some record) :
    Within (Table.insert id record inner) outer := by
  intro other kept there
  by_cases same : other = id
  · subst same
    rw [Table.get?_insert_self] at there
    rw [found, there]
  · rw [Table.get?_insert_of_ne same] at there
    exact within there

/-- A file that is read adds its record, or nothing. -/
theorem Mirrors.loadOne (mirrors : Mirrors directory records disk) (read : Table JobId JobRecord)
    (name : FileName) :
    (∃ id record, Table.get? id records = some record ∧ name.text = id ++ ".json" ∧
        loadOne directory disk read name.text = Table.insert id record read) ∨
      ((∀ id, Table.get? id records ≠ none → name.text ≠ id ++ ".json") ∧
        loadOne directory disk read name.text = read) := by
  by_cases kept : ∃ id record, Table.get? id records = some record ∧ name.text = id ++ ".json"
  · obtain ⟨id, record, found, named⟩ := kept
    obtain ⟨same, plain⟩ := mirrors.keyed found
    refine .inl ⟨id, record, found, named, ?_⟩
    have json : Path.extension? (id ++ ".json") = some "json" := Path.extension?_recordName plain
    have loaded := mirrors.load_some found
    rw [recordPath] at loaded
    rw [named, JobStore.loadOne, if_pos json, loaded]
    simp only [same]
  · have others : ∀ id, Table.get? id records ≠ none → name.text ≠ id ++ ".json" := by
      intro id some named
      obtain ⟨record, found⟩ := Option.ne_none_iff_exists'.mp some
      exact kept ⟨id, record, found, named⟩
    refine .inr ⟨others, ?_⟩
    rw [JobStore.loadOne]
    split
    · next json =>
      split
      · next record loaded =>
        obtain ⟨octets, standing⟩ := JsonFile.file_of_load loaded
        rw [Path.place_join_text] at standing
        obtain ⟨id, some, named⟩ := mirrors.known json standing
        exact absurd named (others id some)
      · rfl
    · rfl

/-- Reading files one after another finds no other records than those that are mirrored, and finds each of those
whose file is read. -/
theorem Mirrors.foldl_loadOne (mirrors : Mirrors directory records disk) {names : List String} :
    (∀ text ∈ names, ∃ name : FileName, name.text = text) →
      ∀ {read : Table JobId JobRecord}, Within read records →
        Within (names.foldl (JobStore.loadOne directory disk) read) records ∧
          ∀ {id record}, Table.get? id records = some record →
            (Table.get? id read = some record ∨ id ++ ".json" ∈ names) →
              Table.get? id (names.foldl (JobStore.loadOne directory disk) read) = some record := by
  induction names with
  | nil =>
    intro _ read within
    exact ⟨within, fun _ choice => by simpa using choice⟩
  | cons text names inductionHypothesis =>
    intro proper read within
    obtain ⟨name, rfl⟩ := proper text List.mem_cons_self
    have rest : ∀ text ∈ names, ∃ name : FileName, name.text = text :=
      fun text member => proper text (List.mem_cons_of_mem _ member)
    rw [List.foldl_cons]
    rcases mirrors.loadOne read name with ⟨id, record, found, named, step⟩ | ⟨unnamed, step⟩
    · rw [step]
      obtain ⟨inside, complete⟩ := inductionHypothesis rest (within.insert found)
      refine ⟨inside, fun {other kept} there choice => complete there ?_⟩
      by_cases same : other = id
      · subst same
        rw [Table.get?_insert_self]
        exact .inl (found.symm.trans there)
      · rw [Table.get?_insert_of_ne same]
        rcases choice with before | listed
        · exact .inl before
        · rcases List.mem_cons.mp listed with first | later
          · exact absurd (append_json_inj (first.trans named)) same
          · exact .inr later
    · rw [step]
      obtain ⟨inside, complete⟩ := inductionHypothesis rest within
      refine ⟨inside, fun {other kept} there choice => complete there ?_⟩
      rcases choice with before | listed
      · exact .inl before
      · rcases List.mem_cons.mp listed with first | later
        · exact absurd first.symm (unnamed other (by rw [there]; simp))
        · exact .inr later

theorem distinct_foldl_loadOne (names : List String) :
    ∀ {read : Table JobId JobRecord}, Table.Distinct read →
      Table.Distinct (names.foldl (JobStore.loadOne directory disk) read) := by
  induction names with
  | nil =>
    intro read distinct
    exact distinct
  | cons name names inductionHypothesis =>
    intro read distinct
    apply inductionHypothesis
    rw [JobStore.loadOne]
    split
    · split
      · exact distinct.insert _ _
      · exact distinct
    · exact distinct

/-- Reading the directory finds the records that its files mirror. -/
theorem Mirrors.load (mirrors : Mirrors directory records disk) :
    ∃ again, JobStore.load directory disk = .ok (.file directory again) ∧
      Mirrors directory again disk ∧ ∀ id, Table.get? id again = Table.get? id records := by
  obtain ⟨names, listed⟩ := Disk.list_of_resolve mirrors.resolved mirrors.here
  have proper : ∀ text ∈ names, ∃ name : FileName, name.text = text := by
    intro text member
    obtain ⟨name, named, _⟩ := (Disk.mem_list listed text).mp member
    exact ⟨name, named⟩
  have nothing : Within [] records := fun found => by simp at found
  obtain ⟨within, complete⟩ := mirrors.foldl_loadOne proper nothing
  have same : ∀ id, Table.get? id (names.foldl (JobStore.loadOne directory disk) []) =
      Table.get? id records := by
    intro id
    cases found : Table.get? id records with
    | some record =>
      apply complete found
      obtain ⟨_, plain⟩ := mirrors.keyed found
      obtain ⟨_, standing⟩ := Disk.read_eq_ok_iff.mp (mirrors.written found)
      rw [Path.place_recordPath directory plain] at standing
      exact .inr ((Disk.mem_list listed _).mpr ⟨recordName plain, rfl, by rw [standing]; simp⟩)
    | none =>
      cases loaded : Table.get? id (names.foldl (JobStore.loadOne directory disk) []) with
      | none => rfl
      | some record =>
        rw [within loaded] at found
        exact absurd found (by simp)
  refine ⟨_, ?_, ?_, same⟩
  · rw [JobStore.load, listed]
  · exact ⟨distinct_foldl_loadOne names Table.distinct_nil, fun found => mirrors.keyed (same _ ▸ found), mirrors.resolved, mirrors.here,
      fun found => mirrors.written (same _ ▸ found),
      fun json standing => by
        obtain ⟨id, some, text⟩ := mirrors.known json standing
        exact ⟨id, by rwa [same], text⟩⟩

/-- Opening the directory once more finds the same records again, and leaves the disk as it is. -/
theorem Mirrors.openAt (mirrors : Mirrors directory records disk) :
    ∃ again, JobStore.openAt directory disk = (disk, .ok (.file directory again)) ∧
      Mirrors directory again disk ∧ ∀ id, Table.get? id again = Table.get? id records := by
  obtain ⟨again, loaded, all⟩ := mirrors.load
  refine ⟨again, ?_, all⟩
  rw [JobStore.openAt, Disk.makeDirectories_of_resolve mirrors.resolved mirrors.here]
  exact congrArg (Prod.mk disk) loaded

/-- A store that is opened in an empty directory has no records. -/
theorem openAt_empty {store : JobStore} (opened : JobStore.openAt directory disk = (next, .ok store))
    (empty : ∀ name : FileName, next.at? (place directory ++ [name]) = none) :
    store = .file directory [] ∧ Mirrors directory [] next := by
  rw [JobStore.openAt] at opened
  split at opened
  · simp at opened
  · next made created =>
    obtain ⟨rfl, loaded⟩ := Prod.mk.inj opened
    obtain ⟨_, resolved, grounded⟩ := Disk.makeDirectories_eq_ok created
    have mirrors : Mirrors directory [] made :=
      ⟨Table.distinct_nil, fun found => by simp at found, resolved, grounded.here,
        fun found => by simp at found, fun _ standing => by simp [empty] at standing⟩
    refine ⟨?_, mirrors⟩
    obtain ⟨again, found, _, same⟩ := mirrors.load
    rw [found, Except.ok.injEq] at loaded
    rw [← loaded]
    cases again with
    | nil => rfl
    | cons entry rest =>
      have first := same entry.1
      simp [Table.get?] at first

end JobStore

end ContractWorks
