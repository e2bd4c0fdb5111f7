import ContractWorks.Proofs.Queue.Change

namespace ContractWorks

section Served

/-- A record rests when its job has ended, or when it is known why its job was given up. -/
def Rested (evidence : Mark → Prop) (record : JobRecord) : Prop :=
  record.status.isTerminal = true ∨
    (record.status = .queued ∧ evidence .unstarted ∧ evidence .shelved) ∨
      (record.status = .running ∧ evidence .unwritten)

/-- A live entry is low when it does not yet say that its job has ended. -/
def IsLow (live : Option LiveJob) : Prop :=
  ∃ entry, live = some entry ∧ entry.progress ≤ Progress.outputCollected

/-- This condition says which records and live entries go with a stage. -/
def Stage.Fits (evidence : Mark → Prop) (record : JobRecord) (live : Option LiveJob) : Stage → Prop
  | .inserted => record.status = .queued ∧ live = none
  | .announced => record.status = .queued ∧ IsLow live
  | .waiting => record.status = .queued ∧ IsLow live
  | .unstarted => record.status = .queued ∧ IsLow live ∧ evidence .unstarted
  | .pending => record.status = .running ∧ IsLow live
  | .busy => record.status = .running ∧ IsLow live
  | .leaving => IsLow live ∧ Rested evidence record

variable {evidence later reason : Mark → Prop} {stage : Stage} {record : JobRecord}

theorem Rested.mono (rested : Rested evidence record) (more : ∀ mark, evidence mark → later mark) :
    Rested later record := by
  rcases rested with ended | ⟨queued, first, second⟩ | ⟨running, why⟩
  · exact .inl ended
  · exact .inr (.inl ⟨queued, more _ first, more _ second⟩)
  · exact .inr (.inr ⟨running, more _ why⟩)

theorem Stage.Fits.mono {live : Option LiveJob} (fits : stage.Fits evidence record live)
    (more : ∀ mark, evidence mark → later mark) : stage.Fits later record live := by
  cases stage with
  | unstarted => exact ⟨fits.1, fits.2.1, more _ fits.2.2⟩
  | leaving => exact ⟨fits.1, Rested.mono fits.2 more⟩
  | _ => exact fits

namespace View

/-- A job is served when it has no record yet, or one holder that its record and its live entry go with, or none
because its record rests. -/
def Served (evidence : Mark → Prop) (view : View) : Prop :=
  match view.record with
  | none => view.custody = 0 ∧ view.live = none
  | some record =>
    (view.custody = 0 ∧ view.live = none ∧ Rested evidence record) ∨
      ∃ stage, view.custody = {stage} ∧ stage.Fits evidence record view.live

variable {view next : View} {rest : Custody}

theorem Served.mono (served : view.Served evidence) (more : ∀ mark, evidence mark → later mark) :
    view.Served later := by
  unfold Served at *
  split at served
  · exact served
  · rcases served with ⟨custody, live, rested⟩ | ⟨stage, custody, fits⟩
    · exact .inl ⟨custody, live, Rested.mono rested more⟩
    · exact .inr ⟨stage, custody, Stage.Fits.mono fits more⟩

theorem served_of_holder (found : view.record = some record) (held : view.custody = {stage})
    (fits : stage.Fits evidence record view.live) : view.Served evidence := by
  unfold Served
  rw [found]
  exact .inr ⟨stage, held, fits⟩

theorem served_at_rest (found : view.record = some record) (nobody : view.custody = 0)
    (entry : view.live = none) (rested : Rested evidence record) : view.Served evidence := by
  unfold Served
  rw [found]
  exact .inl ⟨nobody, entry, rested⟩

theorem eq_of_add_singleton {stage other : Stage} (same : rest + {stage} = {other}) :
    rest = 0 ∧ stage = other := by
  have size := congrArg Multiset.card same
  rw [Multiset.card_add, Multiset.card_singleton, Multiset.card_singleton] at size
  have empty : rest = 0 := Multiset.card_eq_zero.mp (by omega)
  rw [empty, zero_add] at same
  exact ⟨empty, Multiset.singleton_inj.mp same⟩

/-- A holder of a job that is served is its only one. -/
theorem Served.holder (served : view.Served evidence) (held : view.custody = rest + {stage}) :
    rest = 0 ∧ ∃ record, view.record = some record ∧ stage.Fits evidence record view.live := by
  unfold Served at served
  split at served
  · rw [held] at served
    have size := congrArg Multiset.card served.1
    simp at size
  · next record found =>
    rcases served with ⟨custody, _⟩ | ⟨other, custody, fits⟩
    · rw [held] at custody
      have size := congrArg Multiset.card custody
      simp at size
    · rw [held] at custody
      obtain ⟨empty, rfl⟩ := eq_of_add_singleton custody
      exact ⟨empty, record, found, fits⟩

theorem raised_isLow {live : Option LiveJob} {progress : UInt8} (low : IsLow live)
    (few : progress ≤ Progress.outputCollected) : IsLow (some (LiveJob.raised live progress)) := by
  obtain ⟨entry, rfl, bound⟩ := low
  refine ⟨_, rfl, ?_⟩
  show max entry.progress progress ≤ Progress.outputCollected
  rw [UInt8.le_iff_toNat_le] at *
  simp only [UInt8.max_def]
  split <;> assumption

/-- This condition keeps the changes out that only a restart, a recovery or a stray id can make. -/
structure Orderly (reason : Mark → Prop) : Prop where
  dropped : ¬reason .dropped
  recovering : ¬reason .recovering
  delivered : ¬reason .delivered
  restarted : ¬reason .restarted

/-- A job that is served stays served, and the reasons why it is given up become evidence. -/
theorem Served.change (served : view.Served evidence) (change : Change reason view next)
    (orderly : Orderly reason) (more : ∀ mark, evidence mark → later mark)
    (learned : ∀ mark, reason mark → later mark) : next.Served later := by
  cases change with
  | none becomes =>
    subst becomes
    exact served.mono more
  | @insert record free queued becomes =>
    subst becomes
    unfold Served at served
    rw [free] at served
    have fits : Stage.Fits later record view.live .inserted := ⟨queued, served.2⟩
    refine served_of_holder rfl ?_ fits
    show view.custody + {.inserted} = {.inserted}
    rw [served.1, zero_add]
  | announce held becomes =>
    obtain ⟨rfl, record, found, queued, _⟩ := served.holder held
    subst becomes
    exact served_of_holder found (zero_add _) ⟨queued, _, rfl, by decide⟩
  | accept held becomes =>
    obtain ⟨rfl, record, found, fits⟩ := served.holder held
    subst becomes
    exact served_of_holder found (zero_add _) fits
  | start held found applied becomes =>
    obtain ⟨rfl, record, same, _, low⟩ := served.holder held
    subst becomes
    obtain ⟨_, rfl⟩ := JobStore.apply_eq_ok applied
    exact served_of_holder rfl (zero_add _) ⟨rfl, low⟩
  | skip held found started becomes =>
    obtain ⟨rfl, record, same, queued, _⟩ := served.holder held
    rw [found] at same
    exact absurd (Option.some.inj same ▸ queued) started
  | unstarted why held becomes =>
    obtain ⟨rfl, record, found, queued, low⟩ := served.holder held
    subst becomes
    exact served_of_holder found (zero_add _) ⟨queued, low, learned _ why⟩
  | again held becomes =>
    obtain ⟨rfl, record, found, queued, low, _⟩ := served.holder held
    subst becomes
    exact served_of_holder found (zero_add _) ⟨queued, low⟩
  | shelve why held becomes =>
    obtain ⟨rfl, record, found, queued, low, failed⟩ := served.holder held
    subst becomes
    exact served_of_holder found (zero_add _) ⟨low, .inr (.inl ⟨queued, more _ failed, learned _ why⟩)⟩
  | @raise rest stage progress held works low becomes =>
    obtain ⟨rfl, record, found, fits⟩ := served.holder held
    subst becomes
    rw [zero_add] at held
    rcases works with rfl | rfl
    · exact served_of_holder found held ⟨fits.1, raised_isLow fits.2 low⟩
    · exact served_of_holder found held ⟨fits.1, raised_isLow fits.2 low⟩
  | invoke held becomes =>
    obtain ⟨rfl, record, found, fits⟩ := served.holder held
    subst becomes
    exact served_of_holder found (zero_add _) fits
  | yield held becomes =>
    obtain ⟨rfl, record, found, fits⟩ := served.holder held
    subst becomes
    exact served_of_holder found (zero_add _) fits
  | @finish rest record after now transition held found applied becomes =>
    obtain ⟨rfl, other, same, running, low⟩ := served.holder held
    subst becomes
    obtain rfl := Option.some.inj (found.symm.trans same)
    obtain ⟨allowed, rfl⟩ := JobStore.apply_eq_ok applied
    refine served_of_holder rfl (zero_add _) ⟨low, .inl ?_⟩
    rw [running] at allowed
    cases transition <;> first | rfl | exact absurd allowed (by decide)
  | unwritten why held becomes =>
    obtain ⟨rfl, record, found, running, low⟩ := served.holder held
    subst becomes
    exact served_of_holder found (zero_add _) ⟨low, .inr (.inr ⟨running, learned _ why⟩)⟩
  | leave held becomes =>
    obtain ⟨rfl, record, found, _, rested⟩ := served.holder held
    subst becomes
    exact served_at_rest found rfl rfl (Rested.mono rested more)
  | drop why held becomes => exact absurd why orderly.dropped
  | acceptInVain why held becomes => exact absurd why orderly.dropped
  | orphan why found applied becomes => exact absurd why orderly.recovering
  | enter why becomes => exact absurd why orderly.recovering
  | deliver why becomes => exact absurd why orderly.delivered
  | restart why becomes => exact absurd why orderly.restarted

/-- A record that has ended is not changed any more. -/
theorem record_of_change (change : Change reason view next) (found : view.record = some record)
    (ended : record.status.isTerminal = true) : next.record = some record := by
  rcases change.record_cases with same | ⟨_, free, _⟩ | ⟨before, after, transition, now, there, _, applied⟩
  · rw [same, found]
  · simp [found] at free
  · obtain rfl := Option.some.inj (found.symm.trans there)
    obtain ⟨allowed, _⟩ := JobStore.apply_eq_ok applied
    cases status : record.status <;> simp_all [JobState.isTerminal, JobState.canBecome]

/-- A job is backed when it was known before, when its submission has been answered, or when it is about to be. -/
def Backed (known : Prop) (view : View) : Prop :=
  known ∨ 0 < view.accepted ∨ .inserted ∈ view.custody ∨ .announced ∈ view.custody

/-- A job stays backed when a holder comes further that does not answer its submission. -/
theorem Backed.pass {known : Prop} (backed : view.Backed known) (held : view.custody = rest + {stage})
    (apart : stage ≠ .inserted ∧ stage ≠ .announced) (others : rest ≤ next.custody)
    (accepted : next.accepted = view.accepted) : next.Backed known := by
  unfold Backed at *
  rw [accepted]
  rw [held] at backed
  simp only [Multiset.mem_add, Multiset.mem_singleton, Ne.symm apart.1, Ne.symm apart.2, or_false] at backed
  rcases backed with before | answered | early | late
  · exact .inl before
  · exact .inr (.inl answered)
  · exact .inr (.inr (.inl (Multiset.mem_of_le others early)))
  · exact .inr (.inr (.inr (Multiset.mem_of_le others late)))

theorem Backed.change {known : Prop} (backed : view.Backed known) (change : Change reason view next)
    (orderly : Orderly reason) : next.Backed known := by
  have more (rest : Custody) (stage : Stage) : rest ≤ rest + {stage} := Multiset.le_add_right _ _
  cases change with
  | none becomes => exact becomes ▸ backed
  | insert free queued becomes =>
    subst becomes
    exact .inr (.inr (.inl (Multiset.mem_add.mpr (.inr (Multiset.mem_singleton_self _)))))
  | announce held becomes =>
    subst becomes
    exact .inr (.inr (.inr (Multiset.mem_add.mpr (.inr (Multiset.mem_singleton_self _)))))
  | accept held becomes =>
    subst becomes
    exact .inr (.inl (Nat.succ_pos _))
  | start held found applied becomes => exact backed.pass held (by decide) (becomes ▸ more _ _) (becomes ▸ rfl)
  | skip held found started becomes => exact backed.pass held (by decide) (becomes ▸ le_rfl) (becomes ▸ rfl)
  | unstarted why held becomes => exact backed.pass held (by decide) (becomes ▸ more _ _) (becomes ▸ rfl)
  | again held becomes => exact backed.pass held (by decide) (becomes ▸ more _ _) (becomes ▸ rfl)
  | shelve why held becomes => exact backed.pass held (by decide) (becomes ▸ more _ _) (becomes ▸ rfl)
  | raise held works low becomes =>
    subst becomes
    exact backed
  | invoke held becomes => exact backed.pass held (by decide) (becomes ▸ more _ _) (becomes ▸ rfl)
  | yield held becomes => exact backed.pass held (by decide) (becomes ▸ more _ _) (becomes ▸ rfl)
  | finish held found applied becomes => exact backed.pass held (by decide) (becomes ▸ more _ _) (becomes ▸ rfl)
  | unwritten why held becomes => exact backed.pass held (by decide) (becomes ▸ more _ _) (becomes ▸ rfl)
  | leave held becomes => exact backed.pass held (by decide) (becomes ▸ le_rfl) (becomes ▸ rfl)
  | drop why held becomes => exact absurd why orderly.dropped
  | acceptInVain why held becomes => exact absurd why orderly.dropped
  | orphan why found applied becomes => exact absurd why orderly.recovering
  | enter why becomes => exact absurd why orderly.recovering
  | deliver why becomes => exact absurd why orderly.delivered
  | restart why becomes => exact absurd why orderly.restarted

/-- A job is vouched for when it has ended, or when it is backed. -/
def Vouched (known : Prop) (view : View) : Prop :=
  ∀ record, view.record = some record → record.status.isTerminal = true ∨ view.Backed known

theorem Vouched.change {known : Prop} (vouched : view.Vouched known) (change : Change reason view next)
    (orderly : Orderly reason) : next.Vouched known := by
  intro record there
  cases stood : view.record with
  | some before =>
    rcases vouched before stood with ended | backed
    · have kept := record_of_change change stood ended
      exact .inl (Option.some.inj (kept.symm.trans there) ▸ ended)
    · exact .inr (backed.change change orderly)
  | none =>
    cases change with
    | insert free queued becomes =>
      subst becomes
      exact .inr (.inr (.inr (.inl (Multiset.mem_add.mpr (.inr (Multiset.mem_singleton_self _))))))
    | start held found applied becomes => simp [stood] at found
    | finish held found applied becomes => simp [stood] at found
    | orphan why found applied becomes => simp [stood] at found
    | _ =>
      subst_vars
      simp [stood] at there

end View

end Served

/-- This function says how far a job has come for those who look at it. -/
def ExternalState.rank : ExternalState → Nat
  | .pending => 0
  | .processing => 1
  | .completed => 2
  | .failed => 2

theorem JobState.rank_of_canBecome {before after : JobState} (allowed : before.canBecome after = true) :
    before.external.rank ≤ after.external.rank := by
  cases before <;> cases after <;> first | decide | exact absurd allowed (by decide)

namespace View

variable {evidence reason : Mark → Prop} {view next first second third : View}

/-- A job is established when it has a record and its submission has entered it. -/
structure Established (view : View) : Prop where
  stored : view.record ≠ none
  entered : .inserted ∉ view.custody

theorem not_mem_add_singleton {rest : Custody} {stage : Stage} (absent : .inserted ∉ rest)
    (differ : stage ≠ .inserted) : .inserted ∉ rest + {stage} := by
  rw [Multiset.mem_add, Multiset.mem_singleton, not_or]
  exact ⟨absent, Ne.symm differ⟩

theorem Established.rest (established : view.Established) {rest lost : Custody}
    (held : view.custody = rest + lost) : .inserted ∉ rest := by
  intro member
  have more : rest ≤ view.custody := held ▸ Multiset.le_add_right rest lost
  exact established.entered (Multiset.mem_of_le more member)

/-- A job that is established stays so. -/
theorem Established.change (established : view.Established) (change : Change reason view next) :
    next.Established := by
  refine ⟨fun missing => ?_, ?_⟩
  · rcases change.record_cases with same | ⟨_, free, _⟩ | ⟨_, after, _, _, _, there, _⟩
    · exact established.stored (same.symm.trans missing)
    · exact established.stored free
    · simp [there] at missing
  · cases change with
    | none becomes => exact becomes ▸ established.entered
    | insert free queued becomes => exact absurd free established.stored
    | announce held becomes => exact becomes ▸ not_mem_add_singleton (established.rest held) (by decide)
    | accept held becomes => exact becomes ▸ not_mem_add_singleton (established.rest held) (by decide)
    | start held found applied becomes => exact becomes ▸ not_mem_add_singleton (established.rest held) (by decide)
    | skip held found started becomes => exact becomes ▸ established.rest held
    | unstarted why held becomes => exact becomes ▸ not_mem_add_singleton (established.rest held) (by decide)
    | again held becomes => exact becomes ▸ not_mem_add_singleton (established.rest held) (by decide)
    | shelve why held becomes => exact becomes ▸ not_mem_add_singleton (established.rest held) (by decide)
    | raise held works low becomes => exact becomes ▸ established.entered
    | invoke held becomes => exact becomes ▸ not_mem_add_singleton (established.rest held) (by decide)
    | yield held becomes => exact becomes ▸ not_mem_add_singleton (established.rest held) (by decide)
    | finish held found applied becomes => exact becomes ▸ not_mem_add_singleton (established.rest held) (by decide)
    | unwritten why held becomes => exact becomes ▸ not_mem_add_singleton (established.rest held) (by decide)
    | leave held becomes => exact becomes ▸ established.rest held
    | drop why held becomes => exact becomes ▸ established.rest held
    | acceptInVain why held becomes => exact becomes ▸ established.rest held
    | orphan why found applied becomes => exact becomes ▸ established.entered
    | enter why becomes => exact becomes ▸ not_mem_add_singleton established.entered (by decide)
    | deliver why becomes => exact becomes ▸ not_mem_add_singleton established.entered (by decide)
    | restart why becomes => exact becomes ▸ Multiset.notMem_zero _

/-- A job that was known before, or whose submission has been answered, is established. -/
def Recorded (known : Prop) (view : View) : Prop :=
  known ∨ 0 < view.accepted → view.Established

/-- Only a submission that is about to be answered is answered. -/
theorem accepted_of_change (change : Change reason view next) :
    next.accepted = view.accepted ∨ ∃ rest : Custody, view.custody = rest + {.announced} := by
  cases change with
  | accept held becomes => exact .inr ⟨_, held⟩
  | acceptInVain why held becomes => exact .inr ⟨_, held⟩
  | _ =>
    subst_vars
    exact .inl rfl

theorem Recorded.change {known : Prop} (recorded : view.Recorded known) (served : view.Served evidence)
    (change : Change reason view next) : next.Recorded known := by
  intro promised
  have before : view.Established := by
    rcases accepted_of_change change with same | ⟨rest, held⟩
    · exact recorded (same ▸ promised)
    · obtain ⟨rfl, record, found, _⟩ := served.holder held
      refine ⟨by simp [found], ?_⟩
      rw [held]
      exact not_mem_add_singleton (Multiset.notMem_zero _) (by decide)
  exact before.change change

/-- A view is later than another one when the record has come further and stays once it has ended, when a live entry
shows no less than before, and when nothing has happened to a record whose live entry was gone. -/
structure Later (view next : View) : Prop where
  record : ∀ before, view.record = some before → ∃ after, next.record = some after ∧
    before.status.external.rank ≤ after.status.external.rank ∧ (before.status.isTerminal = true → after = before)
  live : ∀ after, next.live = some after → ∃ before, view.live = some before ∧ before.progress ≤ after.progress
  gone : view.live = none → next.record = view.record

theorem Later.refl (view : View) : view.Later view where
  record := fun before found => ⟨before, found, Nat.le_refl _, fun _ => rfl⟩
  live := fun after found => ⟨after, found, UInt8.le_refl _⟩
  gone := fun _ => rfl

theorem Later.gone_on (later : view.Later next) (gone : view.live = none) : next.live = none := by
  cases standing : next.live with
  | none => rfl
  | some after =>
    obtain ⟨before, there, _⟩ := later.live after standing
    simp [gone] at there

theorem Later.trans (former : first.Later second) (latter : second.Later third) : first.Later third where
  record := by
    intro before found
    obtain ⟨middle, there, nearer, kept⟩ := former.record before found
    obtain ⟨after, last, further, stays⟩ := latter.record middle there
    refine ⟨after, last, Nat.le_trans nearer further, fun ended => ?_⟩
    obtain rfl := kept ended
    exact stays ended
  live := by
    intro after found
    obtain ⟨middle, there, more⟩ := latter.live after found
    obtain ⟨before, stood, less⟩ := former.live middle there
    exact ⟨before, stood, UInt8.le_trans less more⟩
  gone := by
    intro gone
    rw [latter.gone (former.gone_on gone), former.gone gone]

/-- A view is later than one with the same record and live entry. -/
theorem later_of_same (record : next.record = view.record) (live : next.live = view.live) : view.Later next where
  record := fun before found => ⟨before, record.trans found, Nat.le_refl _, fun _ => rfl⟩
  live := fun after found => ⟨after, live.symm.trans found, UInt8.le_refl _⟩
  gone := fun _ => record

/-- A view is later than one whose record takes a step, as long as a live entry stands. -/
theorem later_of_apply {record after : JobRecord} {transition : Transition} {now : Time.Instant}
    (found : view.record = some record) (applied : record.apply now transition = .ok after)
    (becomes : next.record = some after) (live : next.live = view.live) (low : IsLow view.live) :
    view.Later next where
  record := by
    intro before stood
    obtain rfl := Option.some.inj (found.symm.trans stood)
    obtain ⟨allowed, rfl⟩ := JobStore.apply_eq_ok applied
    refine ⟨_, becomes, ?_, fun ended => ?_⟩
    · rw [JobStore.status_write]
      exact JobState.rank_of_canBecome allowed
    · cases status : record.status <;> simp_all [JobState.isTerminal, JobState.canBecome]
  live := fun after found => ⟨after, live.symm.trans found, UInt8.le_refl _⟩
  gone := by
    intro gone
    obtain ⟨entry, there, _⟩ := low
    simp [gone] at there

theorem le_raised (entry : LiveJob) (progress : UInt8) :
    entry.progress ≤ (LiveJob.raised (some entry) progress).progress := by
  show entry.progress ≤ max entry.progress progress
  rw [UInt8.le_iff_toNat_le, UInt8.max_def]
  split
  · assumption
  · exact Nat.le_refl _

/-- What a served and established job looks like goes only forward. -/
theorem Served.later (served : view.Served evidence) (established : view.Established)
    (change : Change reason view next) (orderly : Orderly reason) : view.Later next := by
  cases change with
  | none becomes => exact later_of_same (becomes ▸ rfl) (becomes ▸ rfl)
  | insert free queued becomes => exact absurd free established.stored
  | announce held becomes =>
    have member : .inserted ∈ view.custody := by
      rw [held]
      exact Multiset.mem_add.mpr (.inr (Multiset.mem_singleton_self _))
    exact absurd member established.entered
  | start held found applied becomes =>
    obtain ⟨_, _, _, _, low⟩ := served.holder held
    exact later_of_apply found applied (becomes ▸ rfl) (becomes ▸ rfl) low
  | finish held found applied becomes =>
    obtain ⟨_, _, _, _, low⟩ := served.holder held
    exact later_of_apply found applied (becomes ▸ rfl) (becomes ▸ rfl) low
  | @raise rest stage progress held works few becomes =>
    obtain ⟨_, record, _, fits⟩ := served.holder held
    have low : IsLow view.live := by
      rcases works with rfl | rfl
      · exact fits.2
      · exact fits.2
    obtain ⟨entry, there, _⟩ := low
    subst becomes
    refine ⟨fun before found => ⟨before, found, Nat.le_refl _, fun _ => rfl⟩, fun after found => ?_, fun _ => rfl⟩
    have shown : LiveJob.raised view.live progress = after := Option.some.inj found
    rw [← shown, there]
    exact ⟨entry, rfl, le_raised entry progress⟩
  | leave held becomes =>
    subst becomes
    refine ⟨fun before found => ⟨before, found, Nat.le_refl _, fun _ => rfl⟩, fun after found => ?_, fun _ => rfl⟩
    simp at found
  | orphan why found applied becomes => exact absurd why orderly.recovering
  | enter why becomes => exact absurd why orderly.recovering
  | deliver why becomes => exact absurd why orderly.delivered
  | restart why becomes => exact absurd why orderly.restarted
  | _ =>
    subst_vars
    exact later_of_same rfl rfl

/-- The live entry of a served job does not yet say that it has ended. -/
theorem Served.low (served : view.Served evidence) {entry : LiveJob} (found : view.live = some entry) :
    entry.progress ≤ Progress.outputCollected := by
  have bounded (low : IsLow view.live) : entry.progress ≤ Progress.outputCollected := by
    obtain ⟨other, there, bound⟩ := low
    exact Option.some.inj (there.symm.trans found) ▸ bound
  unfold Served at served
  split at served
  · simp [found] at served
  · rcases served with ⟨_, gone, _⟩ | ⟨stage, _, fits⟩
    · simp [found] at gone
    · cases stage with
      | inserted => exact absurd (found.symm.trans fits.2) (by simp)
      | announced => exact bounded fits.2
      | waiting => exact bounded fits.2
      | unstarted => exact bounded fits.2.1
      | pending => exact bounded fits.2
      | busy => exact bounded fits.2
      | leaving => exact bounded fits.1

end View

end ContractWorks
