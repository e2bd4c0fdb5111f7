import ContractWorks.Storage.JobStore

namespace ContractWorks.Path

theorem splitSlash_ne_nil (characters : List Char) : splitSlash characters ≠ [] := by
  cases characters with
  | nil => simp [splitSlash]
  | cons character characters =>
    rw [splitSlash]
    split
    · simp
    · split <;> simp

theorem splitSlash_of_not_mem {characters : List Char} (single : '/' ∉ characters) :
    splitSlash characters = [characters] := by
  induction characters with
  | nil => rfl
  | cons character characters inductionHypothesis =>
    rw [List.mem_cons, not_or] at single
    rw [splitSlash, if_neg (Ne.symm single.1), inductionHypothesis single.2]

/-- What stands before a slash and what stands behind it are split apart. -/
theorem splitSlash_append (before behind : List Char) :
    splitSlash (before ++ '/' :: behind) = splitSlash before ++ splitSlash behind := by
  induction before with
  | nil => simp [splitSlash]
  | cons character before inductionHypothesis =>
    rw [List.cons_append, splitSlash, splitSlash]
    split
    · rw [inductionHypothesis, List.cons_append]
    · rw [inductionHypothesis]
      cases shape : splitSlash before with
      | nil => exact absurd shape (splitSlash_ne_nil before)
      | cons part parts => rfl

/-- This function gives the parts of a row of characters. -/
def partsOfChars (characters : List Char) : List PathPart :=
  (splitSlash characters).filterMap fun name => part? (String.ofList name)

theorem partsOfChars_append (before behind : List Char) :
    partsOfChars (before ++ '/' :: behind) = partsOfChars before ++ partsOfChars behind := by
  rw [partsOfChars, splitSlash_append, List.filterMap_append]
  rfl

/-- A slash at the end adds no part. -/
theorem partsOfChars_slash (characters : List Char) :
    partsOfChars (characters ++ ['/']) = partsOfChars characters := by
  rw [partsOfChars_append]
  have none : partsOfChars [] = [] := by decide
  rw [none, List.append_nil]

/-- This function gives what comes before a name that is put behind a path. -/
def stem (base : String) : List Char :=
  if base = "" ∨ base.toList.getLast? = some '/' then base.toList else base.toList ++ ['/']

theorem toList_join {base name : String} (relative : name.toList.head? ≠ some '/') :
    (join base name).toList = stem base ++ name.toList := by
  rw [join, if_neg relative, stem]
  split
  · rw [String.toList_append]
  · rw [String.toList_append, String.toList_append]
    rfl

/-- A stem is empty or ends with a slash. -/
theorem stem_cases (base : String) : stem base = [] ∨ ∃ before, stem base = before ++ ['/'] := by
  unfold stem
  split
  · next closed =>
    rcases closed with rfl | slash
    · exact .inl rfl
    · obtain ⟨before, shape⟩ := List.getLast?_eq_some_iff.mp slash
      exact .inr ⟨before, shape⟩
  · exact .inr ⟨_, rfl⟩

theorem partsOfChars_stem (base : String) : partsOfChars (stem base) = parts base := by
  unfold stem
  split
  · rfl
  · exact partsOfChars_slash base.toList

/-- The parts of a joined path are those of its base and then those of what is put behind it. -/
theorem parts_join {base name : String} (relative : name.toList.head? ≠ some '/') :
    parts (join base name) = parts base ++ parts name := by
  change partsOfChars (join base name).toList = parts base ++ partsOfChars name.toList
  rw [toList_join relative, ← partsOfChars_stem]
  rcases stem_cases base with empty | ⟨before, shape⟩
  · have none : partsOfChars [] = [] := by decide
    rw [empty, List.nil_append, none, List.nil_append]
  · rw [shape, List.append_assoc, List.singleton_append, partsOfChars_append, partsOfChars_slash]

theorem parts_of_not_mem {name : String} (single : '/' ∉ name.toList) :
    parts name = (part? name).toList := by
  rw [parts, splitSlash_of_not_mem single]
  simp only [List.filterMap_cons, String.ofList_toList, List.filterMap_nil]
  cases part? name <;> rfl

theorem part?_text (name : FileName) : part? name.text = some (.into name) := by
  have proper := name.proper
  have up : name.text ≠ ".." := by
    intro same
    rw [same] at proper
    exact absurd proper (by decide)
  rw [part?, if_neg up, dif_pos proper]

theorem not_mem_of_proper (name : FileName) : '/' ∉ name.text.toList := by
  have proper := name.proper
  simp only [isProper, Bool.and_eq_true, Bool.not_eq_true'] at proper
  simpa using proper.2

theorem head_ne_slash {name : String} (single : '/' ∉ name.toList) : name.toList.head? ≠ some '/' := by
  intro head
  exact single (List.mem_of_mem_head? head)

/-- A file name behind a path adds one part. -/
theorem parts_join_text (base : String) (name : FileName) :
    parts (join base name.text) = parts base ++ [.into name] := by
  have single := not_mem_of_proper name
  rw [parts_join (head_ne_slash single), parts_of_not_mem single, part?_text]
  rfl

/-- A plain name is not empty and has no slash, so that it names a file once an extension stands behind it. -/
def Plain (name : String) : Prop :=
  name ≠ "" ∧ '/' ∉ name.toList

theorem plain_of_isSafeId {name : String}
    (safe : name ≠ "" ∧ name.toList.all (fun character => character.isAlphanum || character = '-')) :
    Plain name := by
  refine ⟨safe.1, fun slash => ?_⟩
  have allowed := List.all_eq_true.mp safe.2 '/' slash
  exact absurd allowed (by decide)

theorem isProper_of_length {name : String} (long : 3 ≤ name.toList.length)
    (single : '/' ∉ name.toList) : isProper name = true := by
  have differs : ∀ short : String, short.toList.length < 3 → name ≠ short := by
    intro short few same
    rw [same] at long
    omega
  simp only [isProper, Bool.and_eq_true, ne_eq, decide_eq_true_eq, Bool.not_eq_true',
    List.contains_eq_mem, decide_eq_false_iff_not]
  exact ⟨⟨⟨differs "" (by decide), differs "." (by decide)⟩, differs ".." (by decide)⟩, single⟩

theorem isProper_append {name ending : String} (plain : Plain name) (long : 2 ≤ ending.toList.length)
    (single : '/' ∉ ending.toList) : isProper (name ++ ending) = true := by
  have some : name.toList ≠ [] := by
    intro empty
    exact plain.1 (String.toList_eq_nil_iff.mp empty)
  have positive := List.length_pos_iff.mpr some
  apply isProper_of_length
  · rw [String.toList_append, List.length_append]
    omega
  · rw [String.toList_append, List.mem_append, not_or]
    exact ⟨plain.2, single⟩

/-- This is the name of the file of a record. -/
def recordName {name : String} (plain : Plain name) : FileName :=
  ⟨name ++ ".json", isProper_append plain (by decide) (by decide)⟩

/-- This is the name of the file that a record is first written to. -/
def spareName {name : String} (plain : Plain name) : FileName :=
  ⟨name ++ ".tmp", isProper_append plain (by decide) (by decide)⟩

theorem splitPoint_append {name : String} (extension : String) (plain : Plain name) (single : '.' ∉ extension.toList) :
    splitPoint (name ++ "." ++ extension) = some (name, extension) := by
  have some : name.toList ≠ [] := fun empty => plain.1 (String.toList_eq_nil_iff.mp empty)
  have reversed : (name ++ "." ++ extension).toList.reverse =
      extension.toList.reverse ++ '.' :: name.toList.reverse := by
    rw [String.toList_append, String.toList_append, List.reverse_append, List.reverse_append]
    rfl
  have behind : (extension.toList.reverse ++ '.' :: name.toList.reverse).takeWhile (· ≠ '.') =
      extension.toList.reverse := by
    rw [List.takeWhile_append_of_pos]
    · simp
    · intro character member
      rw [List.mem_reverse] at member
      simp only [ne_eq, decide_not, Bool.not_eq_true', decide_eq_false_iff_not]
      rintro rfl
      exact single member
  simp only [splitPoint, reversed, behind, List.drop_left]
  rw [if_neg (by simpa using some)]
  simp

theorem extension?_recordName {name : String} (plain : Plain name) :
    extension? (recordName plain).text = some "json" := by
  have split := splitPoint_append "json" plain (by decide)
  rw [String.append_assoc] at split
  rw [extension?, recordName]
  exact congrArg (Option.map Prod.snd) split

theorem extension?_spareName {name : String} (plain : Plain name) :
    extension? (spareName plain).text = some "tmp" := by
  have split := splitPoint_append "tmp" plain (by decide)
  rw [String.append_assoc] at split
  rw [extension?, spareName]
  exact congrArg (Option.map Prod.snd) split

theorem recordName_ne_spareName {first second : String} (plainFirst : Plain first)
    (plainSecond : Plain second) : recordName plainFirst ≠ spareName plainSecond := by
  intro same
  have extension := extension?_recordName plainFirst
  rw [same, extension?_spareName] at extension
  exact absurd extension (by decide)

theorem recordName_inj {first second : String} {plainFirst : Plain first} {plainSecond : Plain second}
    (same : recordName plainFirst = recordName plainSecond) : first = second := by
  have text : first ++ ".json" = second ++ ".json" := congrArg FileName.text same
  have lists := congrArg String.toList text
  rw [String.toList_append, String.toList_append] at lists
  exact String.toList_inj.mp (List.append_cancel_right lists)

/-- The last name of a joined path is what stands behind its last slash. -/
theorem takeWhile_stem (base : String) {name : List Char} (single : '/' ∉ name) :
    (name.reverse ++ (stem base).reverse).takeWhile (· ≠ '/') = name.reverse := by
  rw [List.takeWhile_append_of_pos]
  · rcases stem_cases base with empty | ⟨before, shape⟩
    · simp [empty]
    · simp [shape]
  · intro character member
    rw [List.mem_reverse] at member
    simp only [ne_eq, decide_not, Bool.not_eq_true', decide_eq_false_iff_not]
    rintro rfl
    exact single member

/-- The extension of a joined path is that of its last name. -/
theorem changeExtension_join (base extension : String) {name : String} (single : '/' ∉ name.toList)
    (relative : (withExtension name extension).toList.head? ≠ some '/') :
    changeExtension (join base name) extension = join base (withExtension name extension) := by
  apply String.toList_inj.mp
  have last := takeWhile_stem base single
  rw [toList_join relative, changeExtension]
  simp only [toList_join (head_ne_slash single), last, String.toList_append, String.toList_ofList,
    String.ofList_toList, List.reverse_reverse, List.reverse_append, List.drop_left]

theorem withExtension_recordName {name : String} (plain : Plain name) :
    withExtension (recordName plain).text "tmp" = (spareName plain).text := by
  have split := splitPoint_append "json" plain (by decide)
  rw [String.append_assoc] at split
  have shown : splitPoint (recordName plain).text = some (name, "json") := split
  rw [withExtension, shown]
  exact String.append_assoc

/-- The file that a record is first written to stands beside the one that it is moved to. -/
theorem temporary_recordPath (directory : String) {id : JobId} (plain : Plain id) :
    JsonFile.temporary (JobStore.recordPath directory id) = join directory (spareName plain).text := by
  have renamed := withExtension_recordName plain
  have relative := head_ne_slash (not_mem_of_proper (spareName plain))
  have path : JobStore.recordPath directory id = join directory (recordName plain).text := rfl
  rw [path, JsonFile.temporary,
    changeExtension_join directory "tmp" (not_mem_of_proper (recordName plain)) (renamed ▸ relative),
    renamed]

end ContractWorks.Path
