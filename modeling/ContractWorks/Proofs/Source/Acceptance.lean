import ContractWorks.Proofs.Source.Placeholder

namespace ContractWorks

open Plan (selects)

/-- A block list is acceptable when no two blocks have one id and at most one enabled block is a base. -/
structure Acceptable (blocks : List Block) : Prop where
  distinct : (blocks.map Block.id).Nodup
  single : (blocks.filter selects).length ≤ 1

/-- This type says what is wrong with a block behind an acceptable list: its id is there already, or else it is an
enabled base behind the one that the list has. -/
inductive BlockListError.Blames (front : List Block) (block : Block) : BlockListError → Prop where
  | id (earlier : block.id ∈ front.map Block.id) : Blames front block (.repeatedId block.id)
  | base {first : Block} (fresh : block.id ∉ front.map Block.id) (only : front.filter selects = [first])
    (selected : selects block = true) (differ : first.id ≠ block.id) : Blames front block (.twoBases first.id block.id)

/-- A list breaks at a prefix when this is the shortest one that is not acceptable. -/
structure BreaksAt (blocks violating : List Block) : Prop where
  start : violating <+: blocks
  unacceptable : ¬ Acceptable violating
  shortest : ∀ other, other <+: blocks → ¬ Acceptable other → violating <+: other

section Prefixes

variable {front back blocks : List Block} {block : Block} {error : BlockListError}

theorem acceptable_nil : Acceptable [] where
  distinct := List.nodup_nil
  single := Nat.zero_le 1

/-- What an acceptable list begins with is acceptable. -/
theorem Acceptable.of_prefix (acceptable : Acceptable blocks) (start : front <+: blocks) : Acceptable front where
  distinct := acceptable.distinct.sublist (start.sublist.map Block.id)
  single := Nat.le_trans (start.sublist.filter selects).length_le acceptable.single

/-- The order of the blocks does not count. -/
theorem Acceptable.perm (acceptable : Acceptable blocks) (permuted : front.Perm blocks) : Acceptable front where
  distinct := (permuted.map Block.id).nodup_iff.mpr acceptable.distinct
  single := (permuted.filter selects).length_eq ▸ acceptable.single

theorem nodup_concat : ((front ++ [block]).map Block.id).Nodup ↔
    (front.map Block.id).Nodup ∧ block.id ∉ front.map Block.id := by
  rw [List.map_append, List.map_singleton, List.nodup_append]
  simp only [List.nodup_singleton, List.mem_singleton, forall_eq, true_and]
  exact and_congr_right fun _ => ⟨fun apart member => apart _ member rfl,
    fun fresh id member same => fresh (same ▸ member)⟩

/-- A list that something is blamed for is not acceptable with the block that is blamed. -/
theorem BlockListError.Blames.unacceptable (blames : error.Blames front block) : ¬ Acceptable (front ++ [block]) := by
  intro acceptable
  cases blames with
  | id earlier => exact (nodup_concat.mp acceptable.distinct).2 earlier
  | base fresh only selected differ =>
    have two := acceptable.single
    rw [List.filter_append, only, List.filter_cons_of_pos selected] at two
    simp at two

/-- Where a block is blamed behind an acceptable list, the list breaks. -/
theorem BlockListError.Blames.breaksAt (blames : error.Blames front block) (acceptable : Acceptable front)
    (back : List Block) : BreaksAt (front ++ block :: back) (front ++ [block]) where
  start := ⟨back, by simp⟩
  unacceptable := blames.unacceptable
  shortest other start wrong := by
    have whole : front ++ [block] <+: front ++ block :: back := ⟨back, by simp⟩
    rcases List.prefix_or_prefix_of_prefix whole start with shorter | longer
    · exact shorter
    · rcases List.prefix_concat_iff.mp longer with rfl | within
      · exact List.prefix_rfl
      · exact absurd (acceptable.of_prefix within) wrong

end Prefixes

/-- A check has gone over the front of a list when it has seen just the ids there, and remembers just the id of the
enabled base. -/
structure Checked (front : List Block) (seen : List String) (base : Option String) : Prop where
  acceptable : Acceptable front
  seen : ∀ id, id ∈ seen ↔ id ∈ front.map Block.id
  base : (front.filter selects).map Block.id = base.toList

section Check

variable {front : List Block} {seen : List String} {base : Option String} {block : Block}

theorem checkFrom_cons (seen : List String) (base : Option String) (block : Block) (rest : List Block) :
    checkFrom seen base (block :: rest) =
      if seen.contains block.id then .error (.repeatedId block.id)
      else if selects block then
        match base with
        | some first => .error (.twoBases first block.id)
        | none => checkFrom (block.id :: seen) (some block.id) rest
      else checkFrom (block.id :: seen) base rest := by
  cases base <;> rfl

theorem Checked.concat (checked : Checked front seen base) (fresh : block.id ∉ front.map Block.id)
    {next : Option String} (remembers : ((front ++ [block]).filter selects).map Block.id = next.toList) :
    Checked (front ++ [block]) (block.id :: seen) next where
  acceptable :=
    { distinct := nodup_concat.mpr ⟨checked.acceptable.distinct, fresh⟩
      single := by
        rw [← List.length_map, remembers]
        cases next <;> simp }
  seen id := by
    rw [List.mem_cons, checked.seen, List.map_append, List.mem_append, List.map_singleton, List.mem_singleton, or_comm]
  base := remembers

/-- A check either refuses the next block, and says what is wrong with it, or goes over it. -/
theorem Checked.step (checked : Checked front seen base) (block : Block) :
    (∃ error : BlockListError, error.Blames front block ∧
      ∀ rest, checkFrom seen base (block :: rest) = .error error) ∨
    ∃ next, Checked (front ++ [block]) (block.id :: seen) next ∧
      ∀ rest, checkFrom seen base (block :: rest) = checkFrom (block.id :: seen) next rest := by
  by_cases earlier : block.id ∈ front.map Block.id
  · refine .inl ⟨_, .id earlier, fun rest => ?_⟩
    rw [checkFrom_cons, if_pos (List.contains_iff_mem.mpr ((checked.seen _).mpr earlier))]
  · have unseen : ¬ seen.contains block.id = true := fun contained =>
      earlier ((checked.seen _).mp (List.contains_iff_mem.mp contained))
    have remembered := checked.base
    by_cases selected : selects block = true
    · cases base with
      | none =>
        refine .inr ⟨some block.id, checked.concat earlier ?_, fun rest => ?_⟩
        · rw [List.filter_append, List.map_append, remembered, List.filter_cons_of_pos selected]
          rfl
        · rw [checkFrom_cons, if_neg unseen, if_pos selected]
      | some id =>
        obtain ⟨first, only, rfl⟩ : ∃ first, front.filter selects = [first] ∧ first.id = id :=
          List.map_eq_singleton_iff.mp remembered
        have there : first ∈ front := (List.mem_filter.mp (only ▸ List.mem_singleton_self first)).1
        have differ : first.id ≠ block.id := fun same => earlier (same ▸ List.mem_map_of_mem there)
        refine .inl ⟨_, .base earlier only selected differ, fun rest => ?_⟩
        rw [checkFrom_cons, if_neg unseen, if_pos selected]
    · refine .inr ⟨base, checked.concat earlier ?_, fun rest => ?_⟩
      · rw [List.filter_append, List.map_append, remembered, List.filter_cons_of_neg selected]
        exact List.append_nil _
      · rw [checkFrom_cons, if_neg unseen, if_neg selected]

/-- A check that goes on accepts the rest of the list, or stops at the first block that is to blame. -/
theorem Checked.run (rest : List Block) : ∀ {front : List Block} {seen : List String} {base : Option String},
    Checked front seen base →
      (Acceptable (front ++ rest) ∧ checkFrom seen base rest = .ok ()) ∨
      ∃ (more : List Block) (block : Block) (back : List Block) (error : BlockListError),
        rest = more ++ block :: back ∧ Acceptable (front ++ more) ∧ error.Blames (front ++ more) block ∧
          checkFrom seen base rest = .error error := by
  induction rest with
  | nil =>
    intro front seen base checked
    exact .inl ⟨by rw [List.append_nil]; exact checked.acceptable, rfl⟩
  | cons block rest inductionHypothesis =>
    intro front seen base checked
    rcases checked.step block with ⟨error, blames, refused⟩ | ⟨next, further, same⟩
    · rw [← List.append_nil front] at blames
      exact .inr ⟨[], block, rest, error, rfl, by rw [List.append_nil]; exact checked.acceptable, blames, refused rest⟩
    · have shift (more : List Block) : front ++ [block] ++ more = front ++ block :: more := by simp
      rw [same rest]
      rcases inductionHypothesis further with ⟨acceptable, passed⟩ | ⟨more, culprit, back, error, rfl, before, blames, refused⟩
      · exact .inl ⟨shift rest ▸ acceptable, passed⟩
      · exact .inr ⟨block :: more, culprit, back, error, rfl, shift more ▸ before, shift more ▸ blames, refused⟩

/-- A list passes its check, or is refused for the last block of the prefix that it breaks at. -/
theorem checkBlocks_cases (blocks : List Block) :
    (Acceptable blocks ∧ checkBlocks blocks = .ok ()) ∨
    ∃ (front : List Block) (block : Block) (error : BlockListError), BreaksAt blocks (front ++ [block]) ∧
      error.Blames front block ∧ checkBlocks blocks = .error error := by
  have begun : Checked [] [] none := ⟨acceptable_nil, by simp, rfl⟩
  rcases begun.run blocks with passed | ⟨front, block, back, error, rfl, acceptable, blames, refused⟩
  · exact .inl passed
  · exact .inr ⟨front, block, error, blames.breaksAt acceptable back, blames, refused⟩

theorem checkBlocks_eq_ok {blocks : List Block} : checkBlocks blocks = .ok () ↔ Acceptable blocks := by
  rcases checkBlocks_cases blocks with ⟨acceptable, passed⟩ | ⟨front, block, error, breaks, -, refused⟩
  · exact iff_of_true passed acceptable
  · exact iff_of_false (by simp [refused]) fun acceptable => breaks.unacceptable (acceptable.of_prefix breaks.start)

end Check

namespace Plan

variable {front back : List Block} {base : Block}

/-- The only enabled base of an acceptable list is the first one, wherever it stands. -/
theorem find?_of_acceptable (acceptable : Acceptable (front ++ base :: back)) (selected : selects base = true) :
    (∀ other ∈ front ++ back, selects other = false) ∧ (front ++ base :: back).find? selects = some base := by
  have single := acceptable.single
  rw [List.filter_append, List.filter_cons_of_pos selected, List.length_append, List.length_cons] at single
  have before : front.filter selects = [] := List.length_eq_zero_iff.mp (by omega)
  have behind : back.filter selects = [] := List.length_eq_zero_iff.mp (by omega)
  have others : ∀ other ∈ front ++ back, selects other = false := by
    intro other member
    rcases List.mem_append.mp member with early | late
    · exact Bool.eq_false_iff.mpr (List.filter_eq_nil_iff.mp before other early)
    · exact Bool.eq_false_iff.mpr (List.filter_eq_nil_iff.mp behind other late)
  refine ⟨others, isFirst_iff_find?.mp ⟨front, back, rfl, selected, fun other member => ?_⟩⟩
  exact others other (List.mem_append_left back member)

theorem addFeature_of_selects (features : List Feature) (selected : selects base = true) :
    addFeature features base = features := by
  obtain ⟨enabled, isBase⟩ := Bool.and_eq_true_iff.mp selected
  rcases addFeature_cases features base with ⟨same, -⟩ | ⟨feature, -, found, -, -⟩
  · exact same
  · have type : base.blockType.isBase = false := by
      rw [Block.blockType, ← blockType_of_feature? found]
      exact isBase_blockType feature
    exact absurd isBase (by rw [Block.isBase, type]; decide)

/-- A base adds no feature, wherever it stands. -/
theorem collected_of_selects (front back : List Block) (selected : selects base = true) :
    collected (front ++ base :: back) = collected (front ++ back) := by
  rw [collected, collected, List.foldl_append, List.foldl_append, List.foldl_cons, addFeature_of_selects _ selected]

/-- The plan of an acceptable list starts from its only enabled base, and is the one of the list that has this base
in front. -/
theorem ofBlocks_of_acceptable (acceptable : Acceptable (front ++ base :: back)) (selected : selects base = true) :
    ∃ plan, ofBlocks (front ++ base :: back) = some plan ∧ ofBlocks (base :: (front ++ back)) = some plan ∧
      header base = some (plan.contractName, plan.symbol, plan.base) := by
  obtain ⟨-, found⟩ := find?_of_acceptable acceptable selected
  obtain ⟨plan, planned⟩ := exists_ofBlocks ⟨base, List.mem_append_right front List.mem_cons_self,
    Bool.and_eq_true_iff.mp selected⟩
  obtain ⟨⟨first, isFirst, headed⟩, features⟩ := ofBlocks_eq_some.mp planned
  obtain rfl : base = first := Option.some.inj (found.symm.trans (isFirst_iff_find?.mp isFirst))
  refine ⟨plan, planned, ofBlocks_eq_some.mpr ⟨⟨base, ⟨[], front ++ back, rfl, selected, by simp⟩, headed⟩, ?_⟩, headed⟩
  rw [features, collected_of_selects front back selected]
  exact (collected_of_selects [] (front ++ back) selected).symm

end Plan

open Plan (ofBlocks header)
open Source (generate emit)

/-- A block list is accepted just when all its ids differ and at most one enabled block is a base, in whatever order
the blocks stand. Any other list is refused at the shortest prefix that is not acceptable, for the last block of it:
for its id when that is there already, and else for being a base behind the only one before. The plan and the contract
of an accepted list start from its only enabled base, and are the same wherever that stands. -/
theorem acceptance_exact (blocks : List Block) :
    (checkBlocks blocks = .ok () ↔ Acceptable blocks) ∧
    (¬ Acceptable blocks → ∃ (front : List Block) (block : Block) (error : BlockListError),
      BreaksAt blocks (front ++ [block]) ∧ error.Blames front block ∧ checkBlocks blocks = .error error) ∧
    (∀ other : List Block, other.Perm blocks → (checkBlocks other = .ok () ↔ checkBlocks blocks = .ok ())) ∧
    (checkBlocks blocks = .ok () → ∀ front base back, blocks = front ++ base :: back → selects base = true →
      (∀ other ∈ front ++ back, selects other = false) ∧
      ∃ plan, ofBlocks blocks = some plan ∧ ofBlocks (base :: (front ++ back)) = some plan ∧
        header base = some (plan.contractName, plan.symbol, plan.base) ∧
        ∀ language, generate blocks language = ⟨language, emit language plan, plan.contractName⟩ ∧
          generate (base :: (front ++ back)) language = generate blocks language) := by
  refine ⟨checkBlocks_eq_ok, fun wrong => ?refused, fun other permuted => ?permuted, ?based⟩
  case refused =>
    rcases checkBlocks_cases blocks with ⟨acceptable, -⟩ | refused
    · exact absurd acceptable wrong
    · exact refused
  case permuted =>
    rw [checkBlocks_eq_ok, checkBlocks_eq_ok]
    exact ⟨fun acceptable => acceptable.perm permuted.symm, fun acceptable => acceptable.perm permuted⟩
  case based =>
    rintro passed front base back rfl selected
    have acceptable := checkBlocks_eq_ok.mp passed
    obtain ⟨plan, planned, moved, headed⟩ := Plan.ofBlocks_of_acceptable acceptable selected
    refine ⟨(Plan.find?_of_acceptable acceptable selected).1, plan, planned, moved, headed, fun language => ?_⟩
    rw [Source.generate_of_some planned, Source.generate_of_some moved]
    exact ⟨rfl, rfl⟩

/-- This base stands behind others. -/
def lateBase : Block :=
  ⟨"new", "Token", true, .erc20 {}⟩

/-- This list has a base that is switched off, a feature, and then its base. -/
def baseLast : List Block :=
  [⟨"old", "Coin", false, .nft {}⟩, ⟨"mint", "", true, .mint⟩, lateBase]

/-- The last block of this list has the id of the first one, and is a base behind it too. -/
def crowdedTwice : List Block :=
  [lateBase, ⟨"mint", "", true, .mint⟩, ⟨"new", "Art", true, .nft {}⟩]

/-- A list with its base at the end is accepted and written as with its base in front; where an id comes again, it is
blamed before the base. -/
theorem acceptance_exact_baseLast :
    (checkBlocks baseLast = .ok () ∧ selects lateBase = true ∧
      generate (lateBase :: baseLast.take 2) .soroban = generate baseLast .soroban) ∧
    (¬ Acceptable crowdedTwice ∧ ∃ (front : List Block) (block : Block) (error : BlockListError),
      BreaksAt crowdedTwice (front ++ [block]) ∧ error.Blames front block ∧
        checkBlocks crowdedTwice = .error error ∧ error = .repeatedId "new") := by
  have passed : checkBlocks baseLast = .ok () := by decide
  obtain ⟨-, -, -, based⟩ := acceptance_exact baseLast
  obtain ⟨-, plan, -, -, -, written⟩ := based passed (baseLast.take 2) lateBase [] rfl (by decide)
  have repeats : ¬ Acceptable crowdedTwice := fun acceptable => absurd acceptable.distinct (by decide)
  obtain ⟨-, refused, -, -⟩ := acceptance_exact crowdedTwice
  obtain ⟨front, block, error, breaks, blames, same⟩ := refused repeats
  have first : checkBlocks crowdedTwice = .error (.repeatedId "new") := by decide
  refine ⟨⟨passed, by decide, (written .soroban).2⟩, repeats, front, block, error, breaks, blames, same, ?_⟩
  exact Except.error.inj (same.symm.trans first)

end ContractWorks
