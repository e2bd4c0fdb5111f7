import ContractWorks.Settings.Tree

namespace ContractWorks

namespace SettingStep

/-- Every key is a path that begins with a name. -/
theorem exists_ofKey (key : String) : ∃ first rest, ofKey key = .name first :: rest := by
  rw [ofKey]
  cases named : readName key.toList with
  | none => exact ⟨key, [], rfl⟩
  | some found =>
    obtain ⟨step, behind⟩ := found
    obtain ⟨name, rfl⟩ : ∃ name, step = .name name := by
      rw [readName] at named
      split at named
      · simp at named
      · exact ⟨_, (Prod.mk.inj (Option.some.inj named)).1.symm⟩
    cases others : readRest behind.length behind with
    | none => exact ⟨key, [], by simp [others]⟩
    | some rest => exact ⟨name, rest, by simp [others]⟩

end SettingStep

namespace SettingTree

open SettingStep (fold ofKey)

/-- This function gives the tree under a name. -/
def child? (root : SettingTree) (name : String) : Option SettingTree :=
  Table.get? name root.members

/-- This function lays a tree over what is there: the members of a group join it, and all else takes its place. -/
def layOver (there : Option SettingTree) : SettingTree → SettingTree
  | .group incoming => putAll (there.getD (.group [])) incoming
  | value => value

/-- This function gives what stands at a place when a tree was put at the end of a path from there. -/
def putBelow (value : SettingTree) : List SettingStep → Option SettingTree → SettingTree
  | [], there => layOver there value
  | step :: rest, there => putAt value (step :: rest) (there.getD .unset)

theorem put_eq (root : SettingTree) (name : String) (value : SettingTree) :
    put root name value =
      .group (Table.insert (fold name) (layOver (root.child? (fold name)) value) root.members) := by
  cases value <;> rw [put] <;> first | rfl | (intro incoming same; cases same)

theorem putAt_name (value root : SettingTree) (name : String) (rest : List SettingStep) :
    putAt value (.name name :: rest) root =
      .group (Table.insert (fold name) (putBelow value rest (root.child? (fold name))) root.members) := by
  cases rest with
  | nil => rw [putAt, put_eq, putBelow]
  | cons step rest =>
    rw [putAt, putBelow, child?]
    simp

@[simp] theorem child?_group (members : Table String SettingTree) (name : String) :
    (group members).child? name = Table.get? name members :=
  rfl

theorem child?_insert (members : Table String SettingTree) (name other : String) (value : SettingTree) :
    (group (Table.insert name value members)).child? other =
      if other = name then some value else Table.get? other members := by
  rw [child?_group]
  split
  · next same => rw [same, Table.get?_insert_self]
  · next differ => rw [Table.get?_insert_of_ne differ]

theorem child?_putAt (value root : SettingTree) (name other : String) (rest : List SettingStep) :
    (putAt value (.name name :: rest) root).child? other =
      if other = fold name then some (putBelow value rest (root.child? other)) else root.child? other := by
  rw [putAt_name, child?_insert]
  split
  · next same => rw [same]
  · rfl

/-- This function gives what stands under a name after a member was laid over the tree. -/
def childStep (name : String) (there : Option SettingTree) (member : String × SettingTree) : Option SettingTree :=
  match ofKey member.1 with
  | .name first :: rest => if name = fold first then some (putBelow member.2 rest there) else there
  | _ => there

/-- What stands under one name after an overlay depends on what stood there before and on nothing else in the tree. -/
theorem child?_overlay (name : String) (members : List (String × SettingTree)) : ∀ root : SettingTree,
    (root.overlay members).child? name = members.foldl (childStep name) (root.child? name) := by
  induction members with
  | nil => exact fun root => rfl
  | cons member members inductionHypothesis =>
    intro root
    obtain ⟨first, rest, path⟩ := SettingStep.exists_ofKey member.1
    have once : (putAt member.2 (ofKey member.1) root).child? name = childStep name (root.child? name) member := by
      rw [path, child?_putAt, childStep, path]
    exact (inductionHypothesis _).trans (congrArg (List.foldl (childStep name) · members) once)

section Preset

/-- A tree is bare when nothing stands below it, as below every single value. -/
def Bare (tree : SettingTree) : Prop :=
  tree.members = [] ∧ tree.items = []

/-- A value is preset when it is a single value. -/
def IsSingle : SettingTree → Prop
  | .group _ => False
  | .list _ => False
  | _ => True

theorem IsSingle.bare {tree : SettingTree} (single : tree.IsSingle) : tree.Bare := by
  cases tree <;> first | exact ⟨rfl, rfl⟩ | exact single.elim

/-- Below a place, only its members and its items count for what is put there. -/
theorem putAt_congr (value : SettingTree) (step : SettingStep) (rest : List SettingStep) {first second : SettingTree}
    (members : first.members = second.members) (items : first.items = second.items) :
    putAt value (step :: rest) first = putAt value (step :: rest) second := by
  cases step with
  | name key => rw [putAt_name, putAt_name, child?, child?, members]
  | item index => cases rest <;> simp only [putAt, items]

/-- A bare tree takes members like an empty group. -/
theorem putAll_congr {first second : SettingTree} (members : first.members = second.members)
    {incoming : List (String × SettingTree)} (some : incoming ≠ []) : putAll first incoming = putAll second incoming := by
  cases incoming with
  | nil => exact absurd rfl some
  | cons member rest =>
    obtain ⟨name, value⟩ := member
    rw [putAll, putAll, put_eq, put_eq, child?, child?, members]

/-- A place with a preset is compared to the place alone, where nothing was preset: both hold the same, or the preset
is still there and alone there is nothing, or nothing but an empty group. -/
def Over (preset there alone : Option SettingTree) : Prop :=
  there = alone ∨ there = preset ∧ (alone = none ∨ alone = some (.group []))

/-- A group with presets is compared to the group alone, name by name. -/
def OverGroup (presets : Table String SettingTree) (there alone : SettingTree) : Prop :=
  there = alone ∨ ∃ members others, there = .group members ∧ alone = .group others ∧
    ∀ name, Over (Table.get? name presets) (Table.get? name members) (Table.get? name others)

/-- A part of a tree with presets is compared to the part alone, where nothing was there at first. -/
def OverPart (presets : Table String SettingTree) (there alone : Option SettingTree) : Prop :=
  there = some (.group presets) ∧ alone = none ∨
    ∃ tree other, there = some tree ∧ alone = some other ∧ OverGroup presets tree other

variable {preset there alone : Option SettingTree} {presets : Table String SettingTree}

theorem Over.refl (preset there : Option SettingTree) : Over preset there there :=
  .inl rfl

/-- Unless both places hold the same, both are bare. -/
theorem Over.same_or_bare (single : ∀ tree ∈ preset, tree.IsSingle) (compared : Over preset there alone) :
    there = alone ∨ ∀ default : SettingTree, default.Bare → (there.getD default).Bare ∧ (alone.getD default).Bare := by
  rcases compared with same | ⟨rfl, empty⟩
  · exact .inl same
  · refine .inr fun default bare => ⟨?_, ?_⟩
    · cases there with
      | none => exact bare
      | some tree => exact (single tree rfl).bare
    · rcases empty with rfl | rfl
      · exact bare
      · exact ⟨rfl, rfl⟩

/-- An empty group that is put over a preset leaves it. -/
theorem Over.putEmpty (compared : Over preset there alone) :
    Over preset (some (layOver there (.group []))) (some (layOver alone (.group []))) := by
  have lays (place : Option SettingTree) : layOver place (.group []) = place.getD (.group []) := by
    rw [layOver, putAll]
  rw [lays, lays]
  rcases compared with rfl | ⟨rfl, rfl | rfl⟩
  · exact .refl _ _
  all_goals
    cases there with
    | none => exact .refl _ _
    | some tree => exact .inr ⟨rfl, .inr rfl⟩

/-- Whatever is put at two such places or below them, they compare as before. -/
theorem Over.putBelow (single : ∀ tree ∈ preset, tree.IsSingle) (compared : Over preset there alone)
    (value : SettingTree) (rest : List SettingStep) :
    Over preset (some (putBelow value rest there)) (some (putBelow value rest alone)) := by
  rcases compared.same_or_bare single with rfl | bare
  · exact .refl _ _
  cases rest with
  | cons step rest =>
    obtain ⟨first, second⟩ := bare .unset ⟨rfl, rfl⟩
    refine .inl (congrArg some ?_)
    exact putAt_congr value step rest (first.1.trans second.1.symm) (first.2.trans second.2.symm)
  | nil =>
    cases value with
    | group incoming =>
      by_cases empty : incoming = []
      · subst empty
        exact compared.putEmpty
      · obtain ⟨first, second⟩ := bare (.group []) ⟨rfl, rfl⟩
        exact .inl (congrArg some (putAll_congr (first.1.trans second.1.symm) empty))
    | _ => exact .refl _ _

section Group

variable (single : ∀ name, ∀ tree ∈ Table.get? name presets, tree.IsSingle) {tree other : SettingTree}

/-- At first a group holds its presets, and alone it is empty. -/
theorem OverGroup.start (presets : Table String SettingTree) : OverGroup presets (.group presets) (.group []) :=
  .inr ⟨presets, [], rfl, rfl, fun _ => .inr ⟨rfl, .inl rfl⟩⟩

include single

theorem OverGroup.insert {members others : Table String SettingTree}
    (compared : ∀ name, Over (Table.get? name presets) (Table.get? name members) (Table.get? name others))
    (key : String) (value : SettingTree) (rest : List SettingStep) :
    OverGroup presets (.group (Table.insert key (SettingTree.putBelow value rest (Table.get? key members)) members))
      (.group (Table.insert key (SettingTree.putBelow value rest (Table.get? key others)) others)) := by
  refine .inr ⟨_, _, rfl, rfl, fun name => ?_⟩
  by_cases same : name = key
  · subst same
    rw [Table.get?_insert_self, Table.get?_insert_self]
    exact (compared name).putBelow (single name) value rest
  · rw [Table.get?_insert_of_ne same, Table.get?_insert_of_ne same]
    exact compared name

theorem OverGroup.putAt_name (compared : OverGroup presets tree other) (name : String) (value : SettingTree)
    (rest : List SettingStep) :
    OverGroup presets (putAt value (.name name :: rest) tree) (putAt value (.name name :: rest) other) := by
  rcases compared with rfl | ⟨members, others, rfl, rfl, compared⟩
  · exact .inl rfl
  · rw [SettingTree.putAt_name, SettingTree.putAt_name]
    exact OverGroup.insert single compared (fold name) value rest

theorem OverGroup.putAll (incoming : List (String × SettingTree)) : ∀ {tree other : SettingTree},
    OverGroup presets tree other → OverGroup presets (putAll tree incoming) (putAll other incoming) := by
  induction incoming with
  | nil =>
    intro tree other compared
    rwa [SettingTree.putAll, SettingTree.putAll]
  | cons member incoming inductionHypothesis =>
    intro tree other compared
    obtain ⟨name, value⟩ := member
    rw [SettingTree.putAll, SettingTree.putAll]
    have once := compared.putAt_name single name value []
    rw [putAt, putAt] at once
    exact inductionHypothesis once

omit single in
/-- A list that an index makes has nothing of what was there before, unless that was a list. -/
theorem OverGroup.putAt_item (compared : OverGroup presets tree other) (index : Int) (value : SettingTree)
    (rest : List SettingStep) : putAt value (.item index :: rest) tree = putAt value (.item index :: rest) other := by
  rcases compared with rfl | ⟨members, others, rfl, rfl, -⟩
  · rfl
  · cases rest <;> simp only [putAt, items]

/-- Whatever is put at two such parts or below them, they compare as before. -/
theorem OverPart.putBelow (compared : OverPart presets there alone) (value : SettingTree) (rest : List SettingStep) :
    OverPart presets (some (SettingTree.putBelow value rest there)) (some (SettingTree.putBelow value rest alone)) := by
  refine .inr ⟨_, _, rfl, rfl, ?_⟩
  have groups : OverGroup presets (there.getD (.group [])) (alone.getD (.group [])) := by
    rcases compared with ⟨rfl, rfl⟩ | ⟨tree, other, rfl, rfl, compared⟩
    · exact .start presets
    · exact compared
  -- Where nothing was there, a path begins as in an empty group.
  have below (step : SettingStep) (rest : List SettingStep) (place : Option SettingTree) :
      SettingTree.putBelow value (step :: rest) place = putAt value (step :: rest) (place.getD (.group [])) := by
    cases place with
    | none => exact putAt_congr value step rest rfl rfl
    | some tree => rfl
  cases rest with
  | nil =>
    cases value with
    | group incoming => exact groups.putAll single incoming
    | _ => exact .inl rfl
  | cons step rest =>
    rw [below, below]
    cases step with
    | name key => exact groups.putAt_name single key value rest
    | item index => exact .inl (groups.putAt_item index value rest)

/-- What a file puts into a part of a tree with presets compares to what it puts there alone. -/
theorem OverPart.foldl (name : String) (members : List (String × SettingTree)) : ∀ {there alone : Option SettingTree},
    OverPart presets there alone →
      OverPart presets (members.foldl (childStep name) there) (members.foldl (childStep name) alone) := by
  induction members with
  | nil => exact fun compared => compared
  | cons member members inductionHypothesis =>
    intro there alone compared
    refine inductionHypothesis ?_
    obtain ⟨first, rest, path⟩ := SettingStep.exists_ofKey member.1
    simp only [childStep, path]
    split
    · exact compared.putBelow single member.2 rest
    · exact compared

end Group

end Preset

end SettingTree

end ContractWorks
