import ContractWorks.Proofs.Storage.Mirror

namespace ContractWorks.JobStore

open Path (Plain place)

variable {store other : JobStore} {id : JobId} {record : JobRecord} {fault : Option StoreFault}
  {disk next : Disk}

@[simp] theorem records_withRecords (store : JobStore) (records : Table JobId JobRecord) :
    (store.withRecords records).records = records := by
  cases store <;> rfl

/-- A store that puts a record either has it then, or reports a failure of the disk and is as it was. -/
theorem put_cases {result : Except StoreError Unit}
    (done : store.put id record fault disk = (next, other, result)) :
    (result = .ok () ∧ other = store.withRecords (Table.insert id record store.records)) ∨
      ((∃ text, result = .error (.io text)) ∧ other = store) := by
  cases store with
  | memory records =>
    simp only [put] at done
    split at done
    · obtain ⟨rfl, rfl, rfl⟩ := by simpa using done
      exact .inr ⟨⟨_, rfl⟩, rfl⟩
    · obtain ⟨rfl, rfl, rfl⟩ := by simpa using done
      exact .inl ⟨rfl, rfl⟩
  | file directory records =>
    simp only [put] at done
    split at done
    · obtain ⟨rfl, rfl, rfl⟩ := by simpa using done
      exact .inl ⟨rfl, rfl⟩
    · next error saved =>
      obtain ⟨rfl, rfl, rfl⟩ := by simpa using done
      obtain ⟨⟨text, rfl⟩, _⟩ := JsonFile.save_error saved
      exact .inr ⟨⟨text, rfl⟩, rfl⟩

/-- These are the ways in which an insertion can go. -/
theorem insert_cases {result : Except StoreError Unit}
    (done : store.insert record fault disk = (next, other, result)) :
    (result = .ok () ∧ Table.get? record.id store.records = none ∧
        other = store.withRecords (Table.insert record.id record store.records)) ∨
      (other = store ∧ ((∃ text, result = .error (.io text)) ∨
        (result = .error (.duplicate record.id) ∧ Table.get? record.id store.records ≠ none))) := by
  rw [insert.eq_def] at done
  split at done
  · obtain ⟨rfl, rfl, rfl⟩ := by simpa using done
    exact .inr ⟨rfl, .inl ⟨_, rfl⟩⟩
  · split at done
    · next taken =>
      obtain ⟨rfl, rfl, rfl⟩ := by simpa using done
      exact .inr ⟨rfl, .inr ⟨rfl, by simpa [Option.isSome_iff_ne_none] using taken⟩⟩
    · next free =>
      rcases put_cases done with ⟨ok, stored⟩ | ⟨failed, same⟩
      · exact .inl ⟨ok, by simpa using free, stored⟩
      · exact .inr ⟨same, .inl failed⟩

theorem insert_of_ok (done : store.insert record fault disk = (next, other, .ok ())) :
    Table.get? record.id store.records = none ∧
      other = store.withRecords (Table.insert record.id record store.records) := by
  rcases insert_cases done with ⟨_, free, becomes⟩ | ⟨_, ⟨_, failed⟩ | ⟨failed, _⟩⟩
  · exact ⟨free, becomes⟩
  · simp at failed
  · simp at failed

/-- An insertion that fails leaves the store as it is. -/
theorem insert_of_error {error : StoreError} (done : store.insert record fault disk = (next, other, .error error)) :
    other = store := by
  rcases insert_cases done with ⟨failed, _⟩ | ⟨same, _⟩
  · simp at failed
  · exact same

/-- An insertion leaves the disk and the store alone unless it puts its record. -/
theorem insert_disk {result : Except StoreError Unit}
    (done : store.insert record fault disk = (next, other, result)) :
    (next = disk ∧ other = store) ∨ store.put record.id record fault disk = (next, other, result) := by
  rw [insert.eq_def] at done
  split at done
  · obtain ⟨rfl, rfl, _⟩ := by simpa using done
    exact .inl ⟨rfl, rfl⟩
  · split at done
    · obtain ⟨rfl, rfl, _⟩ := by simpa using done
      exact .inl ⟨rfl, rfl⟩
    · exact .inr done

/-- These are the ways in which a transition can go. -/
theorem transition_cases {transition : Transition} {now : Time.Instant}
    {result : Except StoreError JobRecord}
    (done : store.transition id transition now fault disk = (next, other, result)) :
    (∃ before after, Table.get? id store.records = some before ∧
        before.apply now transition = .ok after ∧ result = .ok after ∧
          other = store.withRecords (Table.insert id after store.records)) ∨
      (other = store ∧ ((∃ text, result = .error (.io text)) ∨
        (result = .error (.notFound id) ∧ Table.get? id store.records = none) ∨
          ∃ before refusal, Table.get? id store.records = some before ∧
            before.apply now transition = .error refusal ∧
              result = .error (.invalidTransition refusal))) := by
  rw [JobStore.transition.eq_def] at done
  split at done
  · obtain ⟨rfl, rfl, rfl⟩ := by simpa using done
    exact .inr ⟨rfl, .inl ⟨_, rfl⟩⟩
  · split at done
    · next missing =>
      obtain ⟨rfl, rfl, rfl⟩ := by simpa using done
      exact .inr ⟨rfl, .inr (.inl ⟨rfl, missing⟩)⟩
    · next before found =>
      split at done
      · next refusal refused =>
        obtain ⟨rfl, rfl, rfl⟩ := by simpa using done
        exact .inr ⟨rfl, .inr (.inr ⟨before, refusal, found, refused, rfl⟩)⟩
      · next after applied =>
        split at done
        · next stored =>
          obtain ⟨rfl, rfl, rfl⟩ := by simpa using done
          rcases put_cases stored with ⟨_, same⟩ | ⟨⟨_, failed⟩, _⟩
          · exact .inl ⟨before, after, found, applied, rfl, same⟩
          · simp at failed
        · next error stored =>
          obtain ⟨rfl, rfl, rfl⟩ := by simpa using done
          rcases put_cases stored with ⟨ok, _⟩ | ⟨⟨text, failed⟩, same⟩
          · simp at ok
          · exact .inr ⟨same, .inl ⟨text, congrArg Except.error (Except.error.inj failed)⟩⟩

theorem transition_of_ok {transition : Transition} {now : Time.Instant} {after : JobRecord}
    (done : store.transition id transition now fault disk = (next, other, .ok after)) :
    ∃ before, Table.get? id store.records = some before ∧ before.apply now transition = .ok after ∧
      other = store.withRecords (Table.insert id after store.records) := by
  rcases transition_cases done with ⟨before, written, found, applied, same, becomes⟩ | ⟨_, failed⟩
  · obtain rfl := Except.ok.inj same
    exact ⟨before, found, applied, becomes⟩
  · rcases failed with ⟨_, failed⟩ | ⟨failed, _⟩ | ⟨_, _, _, _, failed⟩ <;> simp at failed

/-- A transition that fails leaves the store as it is. -/
theorem transition_of_error {transition : Transition} {now : Time.Instant} {error : StoreError}
    (done : store.transition id transition now fault disk = (next, other, .error error)) : other = store := by
  rcases transition_cases done with ⟨_, _, _, _, failed, _⟩ | ⟨same, _⟩
  · simp at failed
  · exact same

/-- A transition is invalid only for the state of the record that is there. -/
theorem transition_of_invalid {transition : Transition} {now : Time.Instant} {refusal : InvalidTransition}
    (done : store.transition id transition now fault disk = (next, other, .error (.invalidTransition refusal))) :
    ∃ before, Table.get? id store.records = some before ∧ before.apply now transition = .error refusal := by
  rcases transition_cases done with ⟨_, _, _, _, failed, _⟩ | ⟨_, failed⟩
  · simp at failed
  · rcases failed with ⟨_, failed⟩ | ⟨failed, _⟩ | ⟨before, refused, found, applied, same⟩
    · simp at failed
    · simp at failed
    · obtain rfl : refusal = refused := by simpa using same
      exact ⟨before, found, applied⟩

/-- A job that runs may fail, so that its store never finds the failure invalid. -/
theorem not_invalid_of_running {error : ErrorRecord} {now : Time.Instant} {refusal : InvalidTransition}
    (runs : ∃ record, Table.get? id store.records = some record ∧ record.status = .running) :
    store.transition id (.fail error) now fault disk ≠ (next, other, .error (.invalidTransition refusal)) := by
  intro done
  obtain ⟨record, there, running⟩ := runs
  obtain ⟨before, stands, applied⟩ := transition_of_invalid done
  obtain rfl := Option.some.inj (there.symm.trans stands)
  simp [JobRecord.apply, running, Transition.target, JobState.canBecome] at applied

/-- A transition leaves the disk and the store alone unless it puts the record after it. -/
theorem transition_disk {transition : Transition} {now : Time.Instant}
    {result : Except StoreError JobRecord}
    (done : store.transition id transition now fault disk = (next, other, result)) :
    (next = disk ∧ other = store) ∨ ∃ before after stored, Table.get? id store.records = some before ∧
      before.apply now transition = .ok after ∧
        store.put id after fault disk = (next, other, stored) ∧ result = stored.map fun _ => after := by
  rw [JobStore.transition.eq_def] at done
  split at done
  · exact .inl ⟨(Prod.mk.inj done).1.symm, (Prod.mk.inj (Prod.mk.inj done).2).1.symm⟩
  · split at done
    · exact .inl ⟨(Prod.mk.inj done).1.symm, (Prod.mk.inj (Prod.mk.inj done).2).1.symm⟩
    · next before found =>
      split at done
      · exact .inl ⟨(Prod.mk.inj done).1.symm, (Prod.mk.inj (Prod.mk.inj done).2).1.symm⟩
      · next after applied =>
        split at done
        · next stored =>
          obtain ⟨rfl, rfl, rfl⟩ := by simpa using done
          exact .inr ⟨before, after, _, found, applied, stored, rfl⟩
        · next error stored =>
          obtain ⟨rfl, rfl, rfl⟩ := by simpa using done
          exact .inr ⟨before, after, _, found, applied, stored, rfl⟩

/-- A transition changes neither the id of a record nor what it was made with. -/
theorem apply_eq_ok {before after : JobRecord} {transition : Transition} {now : Time.Instant}
    (applied : before.apply now transition = .ok after) :
    before.status.canBecome transition.target = true ∧ after = before.write now transition := by
  rw [JobRecord.apply] at applied
  split at applied
  · next allowed => exact ⟨allowed, (Except.ok.inj applied).symm⟩
  · simp at applied

@[simp] theorem id_write (record : JobRecord) (now : Time.Instant) (transition : Transition) :
    (record.write now transition).id = record.id := by
  cases transition <;> rfl

@[simp] theorem status_write (record : JobRecord) (now : Time.Instant) (transition : Transition) :
    (record.write now transition).status = transition.target := by
  cases transition <;> rfl

/-- A store is sound when each record stands once and under its own plain id, and when the files of a store that
has files mirror its records. -/
def Sound (disk : Disk) : JobStore → Prop
  | .memory records =>
    Table.Distinct records ∧
      ∀ {id record}, Table.get? id records = some record → record.id = id ∧ Plain id
  | .file directory records => Mirrors directory records disk

theorem Sound.keyed (sound : store.Sound disk) (found : Table.get? id store.records = some record) :
    record.id = id ∧ Plain id := by
  cases store with
  | memory records => exact sound.2 found
  | file directory records => exact sound.keyed found

theorem Sound.distinct (sound : store.Sound disk) : Table.Distinct store.records := by
  cases store with
  | memory records => exact sound.1
  | file directory records => exact sound.distinct

/-- What outlives a process is what a sound store keeps. -/
theorem Sound.durable (sound : store.Sound disk) (plain : Plain id) :
    store.durable? disk id = Table.get? id store.records := by
  cases store with
  | memory records => rfl
  | file directory records => exact Mirrors.durable sound plain

theorem Sound.put (sound : store.Sound disk) (plain : Plain record.id)
    {result : Except StoreError Unit}
    (done : store.put record.id record fault disk = (next, other, result)) : other.Sound next := by
  cases store with
  | memory records =>
    rcases put_cases done with ⟨_, rfl⟩ | ⟨_, rfl⟩
    · refine ⟨sound.1.insert _ _, fun {id found} there => ?_⟩
      by_cases same : id = record.id
      · subst same
        rw [Table.get?_insert_self, Option.some.injEq] at there
        exact ⟨by rw [there], plain⟩
      · rw [Table.get?_insert_of_ne same] at there
        exact sound.2 there
    · exact sound
  | file directory records =>
    rcases Mirrors.put sound plain done with ⟨_, rfl, mirrors⟩ | ⟨_, rfl, mirrors⟩
    · exact mirrors
    · exact mirrors

/-- An insertion keeps a store sound, whether or not it succeeds. -/
theorem Sound.insert (sound : store.Sound disk) (plain : Plain record.id)
    {result : Except StoreError Unit}
    (done : store.insert record fault disk = (next, other, result)) : other.Sound next := by
  rw [JobStore.insert.eq_def] at done
  split at done
  · obtain ⟨rfl, rfl, _⟩ := by simpa using done
    exact sound
  · split at done
    · obtain ⟨rfl, rfl, _⟩ := by simpa using done
      exact sound
    · exact sound.put plain done

/-- A transition keeps a store sound, whether or not it succeeds. -/
theorem Sound.transition (sound : store.Sound disk) {transition : Transition} {now : Time.Instant}
    {result : Except StoreError JobRecord}
    (done : store.transition id transition now fault disk = (next, other, result)) :
    other.Sound next := by
  rw [JobStore.transition.eq_def] at done
  split at done
  · obtain ⟨rfl, rfl, _⟩ := by simpa using done
    exact sound
  · split at done
    · obtain ⟨rfl, rfl, _⟩ := by simpa using done
      exact sound
    · next before found =>
      obtain ⟨rfl, plain⟩ := sound.keyed found
      split at done
      · obtain ⟨rfl, rfl, _⟩ := by simpa using done
        exact sound
      · next after applied =>
        have same : after.id = before.id := by
          rw [(apply_eq_ok applied).2, id_write]
        rw [← same] at done plain
        split at done
        · next stored =>
          obtain ⟨rfl, rfl, _⟩ := by simpa using done
          exact sound.put plain stored
        · next error stored =>
          obtain ⟨rfl, rfl, _⟩ := by simpa using done
          exact sound.put plain stored

/-- A sound store that is opened once more has the same records. -/
theorem Sound.reopen (sound : store.Sound disk) :
    ∃ again, store.reopen disk = (disk, .ok again) ∧ again.Sound disk ∧
      ∀ id, Table.get? id again.records = Table.get? id store.records := by
  cases store with
  | memory records => exact ⟨_, rfl, sound, fun _ => rfl⟩
  | file directory records =>
    obtain ⟨again, opened, mirrors, same⟩ := Mirrors.openAt sound
    exact ⟨_, opened, mirrors, same⟩

/-- A store is keyed when each record stands once and under its own id. -/
structure Keyed (store : JobStore) : Prop where
  distinct : Table.Distinct store.records
  keyed : ∀ {id record}, Table.get? id store.records = some record → record.id = id

theorem keyed_empty : (memory []).Keyed :=
  ⟨List.nodup_nil, fun found => by simp [records] at found⟩

theorem keyed_singleton (record : JobRecord) : (memory [(record.id, record)]).Keyed := by
  refine ⟨List.nodup_cons.mpr ⟨List.not_mem_nil, List.nodup_nil⟩, fun {id found} there => ?_⟩
  obtain ⟨rfl, rfl⟩ := Table.eq_of_get?_singleton there
  rfl

theorem Sound.isKeyed (sound : store.Sound disk) : store.Keyed :=
  ⟨sound.distinct, fun found => (sound.keyed found).1⟩

theorem Keyed.withRecords (keyed : store.Keyed) (record : JobRecord) :
    (store.withRecords (Table.insert record.id record store.records)).Keyed where
  distinct := by
    rw [records_withRecords]
    exact keyed.distinct.insert _ _
  keyed := by
    intro id found there
    rw [records_withRecords] at there
    by_cases same : id = record.id
    · subst same
      rw [Table.get?_insert_self, Option.some.injEq] at there
      rw [there]
    · rw [Table.get?_insert_of_ne same] at there
      exact keyed.keyed there

/-- An insertion keeps a store keyed, whether or not it succeeds. -/
theorem Keyed.insert (keyed : store.Keyed) {result : Except StoreError Unit}
    (done : store.insert record fault disk = (next, other, result)) : other.Keyed := by
  rcases insert_cases done with ⟨_, _, rfl⟩ | ⟨rfl, _⟩
  · exact keyed.withRecords record
  · exact keyed

theorem Keyed.id_of_apply (keyed : store.Keyed) {before after : JobRecord} {transition : Transition}
    {now : Time.Instant} (found : Table.get? id store.records = some before)
    (applied : before.apply now transition = .ok after) : after.id = id := by
  rw [(apply_eq_ok applied).2, id_write, keyed.keyed found]

/-- A transition keeps a store keyed, whether or not it succeeds. -/
theorem Keyed.transition (keyed : store.Keyed) {transition : Transition} {now : Time.Instant}
    {result : Except StoreError JobRecord}
    (done : store.transition id transition now fault disk = (next, other, result)) : other.Keyed := by
  rcases transition_cases done with ⟨before, after, found, applied, _, rfl⟩ | ⟨rfl, _⟩
  · obtain rfl := keyed.id_of_apply found applied
    exact keyed.withRecords after
  · exact keyed

/-- The records that are read from files stand under their own ids. -/
theorem Keyed.load {directory : String} (loaded : load directory disk = .ok store) : store.Keyed := by
  have each (names : List String) : ∀ records, (file directory records).Keyed →
      (file directory (names.foldl (loadOne directory disk) records)).Keyed := by
    induction names with
    | nil => exact fun _ keyed => keyed
    | cons name names inductionHypothesis =>
      intro records keyed
      refine inductionHypothesis _ ?_
      rw [loadOne]
      split
      · split
        · next record _ => exact keyed.withRecords record
        · exact keyed
      · exact keyed
  rw [JobStore.load] at loaded
  split at loaded
  · simp at loaded
  · next names _ =>
    rw [← Except.ok.inj loaded]
    exact each names [] ⟨keyed_empty.distinct, keyed_empty.keyed⟩

/-- A store that is opened once more is keyed, whatever stands in its files. -/
theorem Keyed.reopen (keyed : store.Keyed) (opened : store.reopen disk = (next, .ok other)) : other.Keyed := by
  cases store with
  | memory records =>
    obtain ⟨_, rfl⟩ := by simpa [JobStore.reopen] using opened
    exact keyed
  | file directory records =>
    rw [JobStore.reopen, openAt] at opened
    split at opened
    · simp at opened
    · exact .load (Prod.mk.inj opened).2

end ContractWorks.JobStore
