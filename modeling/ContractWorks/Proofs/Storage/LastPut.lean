import ContractWorks.Proofs.Storage.Refinement
import ContractWorks.Proofs.Storage.Shelf
import ContractWorks.Proofs.Toolchain.Product
import ContractWorks.Service.Routes
import ContractWorks.Toolchain.Playback

namespace ContractWorks

namespace Artifact

variable {artifact : Artifact}

/-- An artifact is produced when a run of a toolchain ends with it, whatever its host does. -/
def Produced (artifact : Artifact) : Prop :=
  ∃ (config : ToolchainConfig) (kind : JobKind) (budget : Budget) (host : Host) (directory : String)
    (input : JobInput) (stamp : Stamp) (disk : Disk) (output : ToolchainOutput),
    ((Toolchain.forKind config kind).run budget host directory input stamp disk).2 = .ok output ∧
      output.artifact = artifact

theorem Produced.keepable (produced : artifact.Produced) : artifact.Keepable := by
  obtain ⟨config, kind, budget, host, directory, input, stamp, disk, output, done, rfl⟩ := produced
  exact ((Toolchain.forKind_delivers config kind).run done).2

end Artifact

namespace ArtifactStore

open Path (Plain place recordName)

/-- An operation is a call of an artifact store, or its closing and opening again. -/
inductive Operation where
  | put (artifact : Artifact)
  | get (id : ArtifactId)
  | reopen

/-- An outcome is what an operation is answered with. -/
inductive Outcome where
  | stored (result : Except StoreError Unit)
  | found (result : Except StoreError (Option Artifact))
  | reopened (result : Except StoreError Unit)

/-- This function performs an operation. -/
def perform (disk : Disk) (store : ArtifactStore) : Operation → Disk × ArtifactStore × Outcome
  | .put artifact =>
    let (disk, store, result) := store.put artifact none disk
    (disk, store, .stored result)
  | .get id => (disk, store, .found (store.get id none disk))
  | .reopen =>
    match store.reopen disk with
    | (disk, .ok store) => (disk, store, .reopened (.ok ()))
    | (disk, .error error) => (disk, store, .reopened (.error error))

/-- This function performs one operation after another and collects what they are answered with. -/
def performAll (disk : Disk) (store : ArtifactStore) : List Operation → Disk × ArtifactStore × List Outcome
  | [] => (disk, store, [])
  | operation :: rest =>
    let (disk, store, outcome) := store.perform disk operation
    let (disk, store, outcomes) := performAll disk store rest
    (disk, store, outcome :: outcomes)

/-- An outcome has failed when it reports a failure of the disk. -/
def Outcome.failed : Outcome → Bool
  | .stored result => JobStore.isFailure result
  | .found result => JobStore.isFailure result
  | .reopened result => JobStore.isFailure result

/-- This function gives the artifact that an operation puts under an id. -/
def Operation.puts? (id : ArtifactId) : Operation → Option Artifact
  | .put artifact => if artifact.id = id then some artifact else none
  | _ => none

/-- This function gives the artifact that was last put under an id. -/
def lastPut (earlier : List Operation) (id : ArtifactId) : Option Artifact :=
  earlier.reverse.findSome? (Operation.puts? id)

/-- This function answers an operation from what was put earlier. -/
def answer (shows : Artifact → Artifact) (earlier : List Operation) : Operation → Outcome
  | .put _ => .stored (.ok ())
  | .get id => .found (.ok ((lastPut earlier id).map shows))
  | .reopen => .reopened (.ok ())

/-- This function answers one operation after another from what was put earlier. -/
def answers (shows : Artifact → Artifact) (earlier : List Operation) : List Operation → List Outcome
  | [] => []
  | operation :: rest => answer shows earlier operation :: answers shows (earlier ++ [operation]) rest

/-- An operation is proper when it puts only what a toolchain produced, without fractions in its interface and under
an id as they are generated. -/
def Operation.Proper : Operation → Prop
  | .put artifact =>
    artifact.Produced ∧ isSafeId artifact.id = true ∧ ∀ abi ∈ artifact.abi, abi.Whole
  | _ => True

variable {earlier : List Operation} {name : ArtifactId} {artifact : Artifact}

@[simp] theorem lastPut_nil (id : ArtifactId) : lastPut [] id = none :=
  rfl

theorem lastPut_append (earlier : List Operation) (operation : Operation) (id : ArtifactId) :
    lastPut (earlier ++ [operation]) id = (operation.puts? id).or (lastPut earlier id) := by
  rw [lastPut, List.reverse_append, List.reverse_singleton, List.singleton_append, List.findSome?_cons, lastPut]
  cases operation.puts? id <;> rfl

theorem eq_of_puts? {operation : Operation} (puts : operation.puts? name = some artifact) :
    artifact.id = name ∧ operation = .put artifact := by
  cases operation with
  | put other =>
    simp only [Operation.puts?, Option.ite_none_right_eq_some, Option.some.injEq] at puts
    obtain ⟨same, rfl⟩ := puts
    exact ⟨same, rfl⟩
  | get other => simp [Operation.puts?] at puts
  | reopen => simp [Operation.puts?] at puts

theorem mem_of_lastPut (last : lastPut earlier name = some artifact) :
    artifact.id = name ∧ Operation.put artifact ∈ earlier := by
  obtain ⟨operation, member, puts⟩ := List.exists_of_findSome?_eq_some last
  obtain ⟨same, rfl⟩ := eq_of_puts? puts
  exact ⟨same, List.mem_reverse.mp member⟩

/-- A store lacks an id when nothing stands under it. -/
def Lacks (id : ArtifactId) (disk : Disk) : ArtifactStore → Prop
  | .memory artifacts => Table.get? id artifacts = none
  | .file directory => ∀ plain : Plain id, disk.at? (place directory ++ [recordName plain]) = none

/-- A store keeps what was put earlier when it has what was last put under each id, and lacks all other ids. -/
structure Keeps (shows : Artifact → Artifact) (earlier : List Operation) (store : ArtifactStore) (disk : Disk) :
    Prop where
  shows : ∀ artifact, (Operation.put artifact).Proper → store.shown artifact = shows artifact
  opened : store.Open disk
  proper : ∀ operation ∈ earlier, operation.Proper
  has : ∀ {id artifact}, lastPut earlier id = some artifact → store.Has artifact disk
  lacks : ∀ {id}, lastPut earlier id = none → store.Lacks id disk

variable {shows : Artifact → Artifact} {store other : ArtifactStore} {disk next : Disk}

/-- What a store lacks is not found. -/
theorem Lacks.get (lacks : store.Lacks name disk) :
    store.get name none disk = .ok none ∨ ∃ text, store.get name none disk = .error (.io text) := by
  cases store with
  | memory artifacts => exact .inl (congrArg Except.ok lacks)
  | file directory =>
    rw [ArtifactStore.get.eq_def]
    dsimp only
    split
    · next safe =>
      have plain := Path.plain_of_safe safe
      have path : place (artifactPath directory name) = place directory ++ [recordName plain] :=
        Path.place_recordPath directory plain
      have bare : ∀ octets, disk.read (artifactPath directory name) ≠ .ok octets := by
        intro octets read
        have standing := (Disk.read_eq_ok_iff.mp read).2
        rw [path, lacks plain] at standing
        simp at standing
      rw [JsonFile.load]
      split
      · exact .inl rfl
      · exact .inr ⟨_, rfl⟩
      · next octets read => exact absurd read (bare octets)
    · exact .inl rfl

/-- A put fails only as the disk does. -/
theorem failure_of_put {error : StoreError} (done : store.put artifact none disk = (next, other, .error error)) :
    ∃ text, error = .io text := by
  cases store with
  | memory artifacts =>
    rw [put.eq_def] at done
    simp at done
  | file directory =>
    rw [put.eq_def] at done
    dsimp only at done
    generalize saved : JsonFile.save (artifactPath directory artifact.id) artifact.encode _ disk = pair at done
    obtain ⟨written, saving⟩ := pair
    obtain ⟨rfl, rfl, rfl⟩ := by simpa using done
    exact (JsonFile.save_error saved).1

/-- A put leaves a store open and of its kind, and what stands under other ids is still missing there. -/
theorem others_of_put (done : store.put artifact none disk = (next, other, .ok ()))
    (safe : isSafeId artifact.id = true) (opened : store.Open disk) :
    other.Open next ∧ (∀ artifact, other.shown artifact = store.shown artifact) ∧
      ∀ id ≠ artifact.id, store.Lacks id disk → other.Lacks id next := by
  cases store with
  | memory artifacts =>
    rcases put_memory done with ⟨rfl, _⟩ | rfl
    · exact ⟨trivial, fun _ => rfl, fun id differ lacks => (Table.get?_insert_of_ne differ _ _).trans lacks⟩
    · exact ⟨trivial, fun _ => rfl, fun id _ lacks => lacks⟩
  | file directory =>
    have own := Path.plain_of_safe safe
    obtain ⟨rfl, touches⟩ := put_file done
    refine ⟨⟨touches.resolve opened.1, touches.directories _ opened.2⟩, fun _ => rfl, fun id differ lacks plain => ?_⟩
    rw [touches.others]
    · exact lacks plain
    · rw [Path.place_recordPath _ own]
      intro same
      exact differ (Path.recordName_inj (List.cons.inj (List.append_cancel_left same)).1)
    · rw [Path.place_temporary _ own]
      intro same
      exact Path.recordName_ne_spareName plain own (List.cons.inj (List.append_cancel_left same)).1

namespace Keeps

variable {operation : Operation} {outcome : Outcome}

/-- A store that keeps what was put answers a lookup with what was last put. -/
theorem get (keeps : Keeps shows earlier store disk) (id : ArtifactId)
    (fine : (Outcome.found (store.get id none disk)).failed = false) :
    store.get id none disk = .ok ((lastPut earlier id).map shows) := by
  cases last : lastPut earlier id with
  | none =>
    rcases (keeps.lacks last).get with found | ⟨text, failed⟩
    · exact found
    · rw [failed] at fine
      simp [Outcome.failed, JobStore.isFailure] at fine
  | some artifact =>
    obtain ⟨rfl, member⟩ := mem_of_lastPut last
    have proper := keeps.proper _ member
    rw [Option.map_some, ← keeps.shows _ proper]
    exact (keeps.has last).get proper.1.keepable proper.2.1

/-- A store keeps what was put when one more artifact is put. -/
theorem put (keeps : Keeps shows earlier store disk) (proper : (Operation.put artifact).Proper)
    (done : store.put artifact none disk = (next, other, .ok ())) :
    Keeps shows (earlier ++ [.put artifact]) other next := by
  have safe : isSafeId artifact.id = true := proper.2.1
  obtain ⟨opened, shown, lacks⟩ := others_of_put done safe keeps.opened
  refine ⟨fun artifact tidy => (shown artifact).trans (keeps.shows artifact tidy), opened, ?_, ?_, ?_⟩
  · intro operation member
    rcases List.mem_append.mp member with before | last
    · exact keeps.proper operation before
    · exact List.mem_singleton.mp last ▸ proper
  · intro id found last
    rw [lastPut_append] at last
    by_cases same : artifact.id = id
    · obtain rfl : artifact = found := by simpa [Operation.puts?, same] using last
      exact has_put done
    · have before : lastPut earlier id = some found := by simpa [Operation.puts?, same] using last
      obtain ⟨rfl, member⟩ := mem_of_lastPut before
      have plain := Path.plain_of_safe (keeps.proper _ member).2.1
      exact (keeps.has before).other plain (Path.plain_of_safe safe) (Ne.symm same) done
  · intro id last
    rw [lastPut_append] at last
    by_cases same : artifact.id = id
    · simp [Operation.puts?, same] at last
    · have before : lastPut earlier id = none := by simpa [Operation.puts?, same] using last
      exact lacks id (Ne.symm same) (keeps.lacks before)

/-- Operations that put nothing do not count. -/
theorem idle (keeps : Keeps shows earlier store disk) (idle : ∀ id, operation.puts? id = none)
    (proper : operation.Proper) : Keeps shows (earlier ++ [operation]) store disk := by
  have same (id : ArtifactId) : lastPut (earlier ++ [operation]) id = lastPut earlier id := by
    rw [lastPut_append, idle, Option.none_or]
  refine ⟨keeps.shows, keeps.opened, fun other member => ?_, fun last => ?_, fun last => ?_⟩
  · rcases List.mem_append.mp member with before | last
    · exact keeps.proper other before
    · exact List.mem_singleton.mp last ▸ proper
  · exact keeps.has (same _ ▸ last)
  · exact keeps.lacks (same _ ▸ last)

/-- An operation that does not fail is answered from what was put earlier, and the store keeps what is put. -/
theorem perform (keeps : Keeps shows earlier store disk) (proper : operation.Proper)
    (done : store.perform disk operation = (next, other, outcome)) (fine : outcome.failed = false) :
    outcome = answer shows earlier operation ∧ Keeps shows (earlier ++ [operation]) other next := by
  cases operation with
  | put artifact =>
    rcases stored : store.put artifact none disk with ⟨disk', store', result⟩
    simp only [ArtifactStore.perform, stored, Prod.mk.injEq] at done
    obtain ⟨rfl, rfl, rfl⟩ := done
    cases result with
    | ok _ => exact ⟨rfl, keeps.put proper stored⟩
    | error error =>
      obtain ⟨text, rfl⟩ := failure_of_put stored
      simp [Outcome.failed, JobStore.isFailure] at fine
  | get id =>
    simp only [ArtifactStore.perform, Prod.mk.injEq] at done
    obtain ⟨rfl, rfl, rfl⟩ := done
    exact ⟨congrArg Outcome.found (keeps.get id fine), keeps.idle (fun _ => rfl) proper⟩
  | reopen =>
    simp only [ArtifactStore.perform, keeps.opened.reopen, Prod.mk.injEq] at done
    obtain ⟨rfl, rfl, rfl⟩ := done
    exact ⟨rfl, keeps.idle (fun _ => rfl) proper⟩

/-- Operations that do not fail are answered from what was put before each of them. -/
theorem performAll {operations : List Operation} : ∀ {earlier : List Operation} {store : ArtifactStore} {disk : Disk}
    {other : ArtifactStore} {next : Disk} {outcomes : List Outcome}, Keeps shows earlier store disk →
      (∀ operation ∈ operations, operation.Proper) →
        ArtifactStore.performAll disk store operations = (next, other, outcomes) →
          (∀ outcome ∈ outcomes, outcome.failed = false) →
            outcomes = answers shows earlier operations ∧ Keeps shows (earlier ++ operations) other next := by
  induction operations with
  | nil =>
    intro earlier store disk other next outcomes keeps _ done _
    simp only [ArtifactStore.performAll, Prod.mk.injEq] at done
    obtain ⟨rfl, rfl, rfl⟩ := done
    exact ⟨rfl, by rwa [List.append_nil]⟩
  | cons operation rest inductionHypothesis =>
    intro earlier store disk other next outcomes keeps proper done fine
    rcases first : store.perform disk operation with ⟨disk', store', outcome⟩
    rcases others : ArtifactStore.performAll disk' store' rest with ⟨disk'', store'', outcomes'⟩
    simp only [ArtifactStore.performAll, first, others, Prod.mk.injEq] at done
    obtain ⟨rfl, rfl, rfl⟩ := done
    obtain ⟨rfl, kept⟩ := keeps.perform (proper _ List.mem_cons_self) first (fine _ List.mem_cons_self)
    obtain ⟨rfl, last⟩ := inductionHypothesis kept (fun operation member => proper operation (List.mem_cons_of_mem _ member))
      others fun outcome member => fine outcome (List.mem_cons_of_mem _ member)
    refine ⟨rfl, ?_⟩
    rwa [List.append_assoc, List.singleton_append] at last

end Keeps

/-- This disk holds the directory of a store and nothing else. -/
def bareDisk : Disk :=
  ⟨[([JobStore.dataFolder], .directory), ([JobStore.dataFolder, folder], .directory)]⟩

theorem openBelow_bareDisk : openBelow "data" .empty = (bareDisk, .ok (.file (Path.join "data" "artifacts"))) := by
  have made : Disk.empty.makeDirectories (Path.join "data" "artifacts") = .ok bareDisk := by rfl
  rw [openBelow, openAt, made]

theorem list_bareDisk : bareDisk.list (Path.join "data" "artifacts") = .ok [] := by
  have names : bareDisk.list (Path.join "data" "artifacts") =
      .ok (([] : List String).mergeSort fun first second => decide (first ≤ second)) := by rfl
  rw [names, List.mergeSort_nil]

end ArtifactStore

end ContractWorks
