import ContractWorks.Proofs.Queue.Served

namespace ContractWorks

/-- The same change has fewer reasons to name when it is none of those that lose an id. -/
theorem Change.kept_or_lost {reason : Mark → Prop} {view next : View} (change : Change reason view next) :
    Change (fun mark => reason mark ∧ mark ≠ .dropped) view next ∨ (reason .dropped ∧ ∃ rest lost accepted,
      view.custody = rest + lost ∧ next = { view with custody := rest, accepted := accepted }) := by
  cases change with
  | none becomes => exact .inl (.none becomes)
  | insert free queued becomes => exact .inl (.insert free queued becomes)
  | announce held becomes => exact .inl (.announce held becomes)
  | accept held becomes => exact .inl (.accept held becomes)
  | start held found applied becomes => exact .inl (.start held found applied becomes)
  | skip held found started becomes => exact .inl (.skip held found started becomes)
  | unstarted why held becomes => exact .inl (.unstarted ⟨why, by simp⟩ held becomes)
  | again held becomes => exact .inl (.again held becomes)
  | shelve why held becomes => exact .inl (.shelve ⟨why, by simp⟩ held becomes)
  | raise held works low becomes => exact .inl (.raise held works low becomes)
  | invoke held becomes => exact .inl (.invoke held becomes)
  | yield held becomes => exact .inl (.yield held becomes)
  | finish held found applied becomes => exact .inl (.finish held found applied becomes)
  | unwritten why held becomes => exact .inl (.unwritten ⟨why, by simp⟩ held becomes)
  | leave held becomes => exact .inl (.leave held becomes)
  | drop why held becomes => exact .inr ⟨why, _, _, _, held, becomes⟩
  | acceptInVain why held becomes => exact .inr ⟨why, _, _, _, held, becomes⟩
  | orphan why found applied becomes => exact .inl (.orphan ⟨why, by simp⟩ found applied becomes)
  | enter why becomes => exact .inl (.enter ⟨why, by simp⟩ becomes)
  | deliver why becomes => exact .inl (.deliver ⟨why, by simp⟩ becomes)
  | restart why becomes => exact .inl (.restart ⟨why, by simp⟩ becomes)

namespace View

variable {reason : Mark → Prop} {view next : View} {record : JobRecord} {rest : Custody} {stage : Stage}

/-- A job is stranded when it waits, but nobody holds it. -/
def Stranded (view : View) : Prop :=
  view.custody = 0 ∧ ∃ record, view.record = some record ∧ record.status = .queued

/-- A job is tended when it is served, whatever the reason may be why it was given up, or when it is stranded. -/
def Tended (view : View) : Prop :=
  view.Served (fun _ => True) ∨ view.Stranded

/-- A job is early when no worker has come to it. -/
def Early (view : View) : Prop :=
  ∀ stage ∈ view.custody, stage = .inserted ∨ stage = .announced ∨ stage = .waiting

/-- A job awaits a start when its record is queued and its submission, if there is one, has entered it. -/
structure Awaits (view : View) : Prop where
  queued : ∃ record, view.record = some record ∧ record.status = .queued
  entered : .inserted ∉ view.custody

theorem not_held_of_nobody (nobody : view.custody = 0) : view.custody ≠ rest + {stage} := by
  intro held
  rw [nobody] at held
  have size := congrArg Multiset.card held
  simp at size

theorem exists_holder (held : view.custody ≠ 0) : ∃ stage ∈ view.custody, ∃ rest, view.custody = rest + {stage} := by
  obtain ⟨stage, member⟩ := Multiset.exists_mem_of_ne_zero held
  obtain ⟨rest, split⟩ := Multiset.exists_cons_of_mem member
  exact ⟨stage, member, rest, by rw [split, Multiset.add_comm, Multiset.singleton_add]⟩

/-- A holder of a job that is tended is its only one. -/
theorem Tended.holder (tended : view.Tended) (held : view.custody = rest + {stage}) :
    rest = 0 ∧ ∃ record, view.record = some record ∧ stage.Fits (fun _ => True) record view.live := by
  rcases tended with served | ⟨nobody, _⟩
  · exact served.holder held
  · exact absurd held (not_held_of_nobody nobody)

/-- An early job that somebody holds waits. -/
theorem Tended.queued (tended : view.Tended) (early : view.Early) (found : view.record = some record)
    (held : view.custody ≠ 0) : record.status = .queued := by
  obtain ⟨stage, member, rest, shape⟩ := exists_holder held
  obtain ⟨_, other, there, fits⟩ := tended.holder shape
  obtain rfl := Option.some.inj (found.symm.trans there)
  rcases early stage member with rfl | rfl | rfl
  · exact fits.1
  · exact fits.1
  · exact fits.1

/-- A tended job that has no live entry and that no submission has still to enter is held by nobody. -/
theorem Tended.nobody (tended : view.Tended) (entered : .inserted ∉ view.custody) (gone : view.live = none) :
    view.custody = 0 := by
  by_contra held
  obtain ⟨stage, member, rest, shape⟩ := exists_holder held
  obtain ⟨_, record, there, fits⟩ := tended.holder shape
  have absent (low : IsLow view.live) : False := by
    obtain ⟨entry, there, _⟩ := low
    simp [gone] at there
  cases stage with
  | inserted => exact entered member
  | announced => exact absent fits.2
  | waiting => exact absent fits.2
  | unstarted => exact absent fits.2.1
  | pending => exact absent fits.2
  | busy => exact absent fits.2
  | leaving => exact absent fits.1

/-- An early job that loses a part of its custody is still tended. -/
theorem Tended.drop (tended : view.Tended) (early : view.Early) {lost : Custody} {accepted : Nat}
    (held : view.custody = rest + lost) : View.Tended { view with custody := rest, accepted := accepted } := by
  have less : rest ≤ view.custody := held ▸ Multiset.le_add_right rest lost
  by_cases nobody : view.custody = 0
  · have none : rest = view.custody := (Multiset.le_zero.mp (nobody ▸ less)).trans nobody.symm
    rw [none]
    exact tended
  · obtain ⟨stage, member, others, shape⟩ := exists_holder nobody
    obtain ⟨rfl, record, found, _⟩ := tended.holder shape
    rw [zero_add] at shape
    rcases Multiset.le_singleton.mp (shape ▸ less) with rfl | rfl
    · exact .inr ⟨rfl, record, found, tended.queued early found nobody⟩
    · rw [← shape]
      exact tended

/-- A job with a record that nobody holds stays as it is as long as no start recovers it. -/
theorem unchanged_of_nobody (change : Change reason view next) (nobody : view.custody = 0)
    (known : view.record ≠ none) (recovers : ¬reason .recovering) (delivers : ¬reason .delivered)
    (restarts : ¬reason .restarted) : next.record = view.record ∧ next.live = view.live ∧ next.custody = 0 := by
  have absent {rest : Custody} {stage : Stage} (held : view.custody = rest + {stage}) : False :=
    not_held_of_nobody nobody held
  have empty {rest lost : Custody} (held : view.custody = rest + lost) : rest = 0 :=
    Multiset.le_zero.mp (nobody ▸ held ▸ Multiset.le_add_right rest lost)
  cases change with
  | none becomes => exact becomes.symm ▸ ⟨rfl, rfl, nobody⟩
  | insert free queued becomes => exact absurd free known
  | announce held becomes => exact (absent held).elim
  | accept held becomes => exact (absent held).elim
  | start held found applied becomes => exact (absent held).elim
  | skip held found started becomes => exact (absent held).elim
  | unstarted why held becomes => exact (absent held).elim
  | again held becomes => exact (absent held).elim
  | shelve why held becomes => exact (absent held).elim
  | raise held works low becomes => exact (absent held).elim
  | invoke held becomes => exact (absent held).elim
  | yield held becomes => exact (absent held).elim
  | finish held found applied becomes => exact (absent held).elim
  | unwritten why held becomes => exact (absent held).elim
  | leave held becomes => exact (absent held).elim
  | drop why held becomes => exact becomes ▸ ⟨rfl, rfl, empty held⟩
  | acceptInVain why held becomes => exact (absent held).elim
  | orphan why found applied becomes => exact absurd why recovers
  | enter why becomes => exact absurd why recovers
  | deliver why becomes => exact absurd why delivers
  | restart why becomes => exact absurd why restarts

/-- A tended job stays so as long as no start recovers it. -/
theorem Tended.change (tended : view.Tended) (change : Change reason view next) (recovers : ¬reason .recovering)
    (delivers : ¬reason .delivered) (restarts : ¬reason .restarted) (early : reason .dropped → view.Early) :
    next.Tended := by
  rcases change.kept_or_lost with kept | ⟨why, rest, lost, accepted, held, rfl⟩
  · rcases tended with served | ⟨nobody, record, found, queued⟩
    · exact .inl (served.change kept ⟨fun why => why.2 rfl, fun why => recovers why.1, fun why => delivers why.1,
        fun why => restarts why.1⟩ (fun _ _ => trivial) fun _ _ => trivial)
    · obtain ⟨same, _, none⟩ := unchanged_of_nobody change nobody (by simp [found]) recovers delivers restarts
      exact .inr ⟨none, record, same.trans found, queued⟩
  · exact tended.drop (early why) held

/-- A tended job that no worker has come to stays tended when a start fails it as an orphan. -/
theorem Tended.orphan (tended : view.Tended) (early : view.Early) {after : JobRecord} {now : Time.Instant}
    (found : view.record = some record) (applied : record.apply now (.fail World.orphanError) = .ok after) :
    View.Tended { view with record := some after } := by
  obtain ⟨allowed, rfl⟩ := JobStore.apply_eq_ok applied
  have apart : record.status ≠ .queued := by
    intro queued
    rw [queued] at allowed
    exact absurd allowed (by decide)
  have nobody : view.custody = 0 := by
    by_contra held
    exact apart (tended.queued early found held)
  rcases tended with served | ⟨_, other, there, queued⟩
  · rw [Served, found] at served
    rcases served with ⟨_, gone, _⟩ | ⟨stage, held, _⟩
    · exact .inl (served_at_rest rfl nobody gone (.inl rfl))
    · simp [nobody] at held
  · obtain rfl := Option.some.inj (found.symm.trans there)
    exact absurd queued apart

/-- A tended job stays so when a start enters it, if it awaits one and has no live entry. -/
theorem Tended.enter (tended : view.Tended) (awaits : view.Awaits) (gone : view.live = none) :
    View.Tended { view with live := some ⟨.queued, Progress.queued⟩, custody := view.custody + {.waiting} } := by
  obtain ⟨record, found, queued⟩ := awaits.queued
  have alone : view.custody + {.waiting} = {.waiting} := by rw [tended.nobody awaits.entered gone, zero_add]
  exact .inl (served_of_holder found alone ⟨queued, _, rfl, by decide⟩)

theorem Early.not_held (early : view.Early) (held : view.custody = rest + {stage})
    (apart : stage ≠ .inserted ∧ stage ≠ .announced ∧ stage ≠ .waiting) : False := by
  have inside : stage ∈ view.custody := by
    rw [held]
    exact Multiset.mem_add.mpr (.inr (Multiset.mem_singleton_self _))
  rcases early stage inside with same | same | same
  · exact apart.1 same
  · exact apart.2.1 same
  · exact apart.2.2 same

/-- A job goes on to await a start as long as no worker comes to it. -/
theorem Awaits.change (awaits : view.Awaits) (change : Change reason view next) (before : view.Early)
    (after : next.Early) (recovers : ¬reason .recovering) : next.Awaits := by
  obtain ⟨⟨record, stands, queued⟩, entered⟩ := awaits
  have member {rest : Custody} {stage : Stage} (held : view.custody = rest + {stage}) : stage ∈ view.custody := by
    rw [held]
    exact Multiset.mem_add.mpr (.inr (Multiset.mem_singleton_self _))
  have left {rest lost : Custody} (held : view.custody = rest + lost) : .inserted ∉ rest := fun inside =>
    entered (held ▸ Multiset.mem_add.mpr (.inl inside))
  have more {rest : Custody} {stage : Stage} (apart : .inserted ∉ rest) (differ : stage ≠ .inserted) :
      .inserted ∉ rest + {stage} := by
    rw [Multiset.mem_add, Multiset.mem_singleton, not_or]
    exact ⟨apart, Ne.symm differ⟩
  cases change with
  | none becomes => exact becomes ▸ ⟨⟨record, stands, queued⟩, entered⟩
  | insert free _ becomes => simp [stands] at free
  | announce held becomes => exact absurd (member held) entered
  | accept held becomes => exact becomes ▸ ⟨⟨record, stands, queued⟩, more (left held) (by decide)⟩
  | start held found applied becomes => exact (after.not_held (congrArg View.custody becomes) (by decide)).elim
  | skip held found started becomes =>
    obtain rfl := Option.some.inj (stands.symm.trans found)
    exact absurd queued started
  | unstarted why held becomes => exact (after.not_held (congrArg View.custody becomes) (by decide)).elim
  | again held becomes => exact (before.not_held held (by decide)).elim
  | shelve why held becomes => exact (before.not_held held (by decide)).elim
  | raise held stages low becomes => exact (before.not_held held (by rcases stages with rfl | rfl <;> decide)).elim
  | invoke held becomes => exact (before.not_held held (by decide)).elim
  | yield held becomes => exact (before.not_held held (by decide)).elim
  | finish held found applied becomes => exact (before.not_held held (by decide)).elim
  | unwritten why held becomes => exact (before.not_held held (by decide)).elim
  | leave held becomes => exact (before.not_held held (by decide)).elim
  | drop why held becomes => exact becomes ▸ ⟨⟨record, stands, queued⟩, left held⟩
  | acceptInVain why held becomes => exact becomes ▸ ⟨⟨record, stands, queued⟩, left held⟩
  | orphan why found applied becomes => exact absurd why recovers
  | enter why becomes => exact absurd why recovers
  | deliver why becomes => exact becomes ▸ ⟨⟨record, stands, queued⟩, more entered (by decide)⟩
  | restart why becomes => exact becomes ▸ ⟨⟨record, stands, queued⟩, Multiset.notMem_zero _⟩

/-- While a worker has started a job of its own, the live entry of the job stands and does not go back. -/
theorem Tended.progress (tended : view.Tended) (change : Change reason view next) (orderly : Orderly reason)
    (held : view.custody = rest + {stage}) (works : stage = .pending ∨ stage = .busy) :
    ∃ entry after, view.live = some entry ∧ next.live = some after ∧ entry.progress ≤ after.progress := by
  obtain ⟨rfl, record, found, fits⟩ := tended.holder held
  have low : IsLow view.live := by
    rcases works with rfl | rfl
    · exact fits.2
    · exact fits.2
  obtain ⟨entry, there, _⟩ := low
  have kept (same : next.live = view.live) :
      ∃ entry after, view.live = some entry ∧ next.live = some after ∧ entry.progress ≤ after.progress :=
    ⟨entry, entry, there, same.trans there, UInt8.le_refl _⟩
  have alone {others : Custody} {other : Stage} (again : view.custody = others + {other}) : stage = other := by
    rw [held, zero_add] at again
    exact (eq_of_add_singleton again.symm).2.symm
  cases change with
  | insert free queued becomes => simp [found] at free
  | announce again becomes => rcases works with rfl | rfl <;> simpa using alone again
  | leave again becomes => rcases works with rfl | rfl <;> simpa using alone again
  | @raise others other progress again inside few becomes =>
    refine ⟨entry, LiveJob.raised view.live progress, there, becomes ▸ rfl, ?_⟩
    rw [there]
    exact le_raised entry progress
  | orphan why found applied becomes => exact absurd why orderly.recovering
  | enter why becomes => exact absurd why orderly.recovering
  | restart why becomes => exact absurd why orderly.restarted
  | _ =>
    subst_vars
    exact kept rfl

end View

end ContractWorks
