import HeapSentry.Proofs.Supervisor.Accounts

/-!
# While the supervisor starts

What earlier runs left is sorted out once, by one thread.  Until that is done, all that there is to
do with the dump comes from its having been made in this run.
-/

namespace HeapSentry.Supervisor

open Storage

variable {site : Site} {stem : String} {settings : Settings} {setup : Setup} {w w' : World}
  {o : Origin} {c c' : Custody} {r : Request} {answer : Answer r}
  {p p' : Play (custody site stem)} {move : Move} {i : Nat}

/-! ## One scan -/

/-- Whether a thread sorts out what earlier runs left. -/
def Custody.Scans : Custody → Prop
  | .recovering | .sorting => True
  | _ => False

theorem World.recovered_perform (hw : w.perform settings r = (answer, w'))
    (h : w.memory.recovered = true) : w'.memory.recovered = true := by
  obtain rfl : _ = w' := congrArg Prod.snd hw
  cases r with
  | claimRecovery => rfl
  | _ => exact h

variable (site stem) in
theorem Custody.not_scans_given (pairs : List DumpPair) :
    ¬ (Custody.given site stem pairs).Scans := by
  rw [Custody.given]
  split <;> exact id

variable (site stem) in
theorem Custody.not_scans_opening (o : Origin) : ¬ (Custody.opening site stem o).Scans := by
  cases o with
  | call call => exact id
  | task t => exact Custody.not_scans_given site stem t.pairs

/-- Whoever sorts out did so before, or was the first to be granted that. -/
theorem Custody.Step.scans (h : Custody.Step site stem o c r answer c')
    (hw : w.perform settings r = (answer, w')) (hscans : c'.Scans) :
    c.Scans ∨ w.memory.recovered = false ∧ w'.memory.recovered = true := by
  cases h with
  | common => exact .inl hscans
  | @claim granted =>
      obtain rfl : (!w.memory.recovered) = granted := congrArg Prod.fst hw
      obtain rfl : _ = w' := congrArg Prod.snd hw
      cases hrecovered : w.memory.recovered with
      | true =>
          rw [hrecovered] at hscans
          exact hscans.elim
      | false => exact .inr ⟨rfl, rfl⟩
  | list => exact .inl trivial
  | find => exact .inl trivial
  | take => exact (Custody.not_scans_given _ _ _ hscans).elim
  | makeRoom => split at hscans <;> exact hscans.elim
  | mark => split at hscans <;> exact hscans.elim
  | _ => exact hscans.elim

/-- Whether one thread at most sorts out, and that was granted to it. -/
structure Play.ScansOnce (p : Play (custody site stem)) : Prop where
  granted : ∀ part ∈ p.cast, Custody.Scans part.2 → p.world.memory.recovered = true
  sole : ∀ {i j : Nat} {part other}, p.cast[i]? = some part → p.cast[j]? = some other →
    Custody.Scans part.2 → Custody.Scans other.2 → i = j

/-- Whether what earlier runs left has not been sorted out. -/
def Play.IsEarly (p : Play (custody site stem)) : Prop :=
  p.world.memory.recovered = false ∨ ∃ part ∈ p.cast, Custody.Scans part.2

theorem Play.IsEarly.of_enter (hrecovered : w.memory.recovered = p.world.memory.recovered)
    (h : (Play.enter { p with world := w } o).IsEarly) : p.IsEarly := by
  refine h.imp hrecovered.symm.trans ?_
  rintro ⟨part, hmem, hscans⟩
  obtain hold | rfl := Play.mem_enter.1 hmem
  · exact ⟨part, hold, hscans⟩
  · exact (Custody.not_scans_opening _ _ o hscans).elim

theorem Play.ScansOnce.enter (h : p.ScansOnce)
    (hrecovered : w.memory.recovered = p.world.memory.recovered) (o : Origin) :
    (Play.enter { p with world := w } o).ScansOnce := by
  constructor
  case granted =>
    intro part hmem hscans
    obtain hold | rfl := Play.mem_enter.1 hmem
    · exact hrecovered.trans (h.granted part hold hscans)
    · exact (Custody.not_scans_opening _ _ o hscans).elim
  case sole =>
    intro i j part other hpart hother hscans hscans'
    obtain hpart | ⟨-, rfl⟩ := getElem?_snoc_eq_some_iff.1 hpart
    · obtain hother | ⟨-, rfl⟩ := getElem?_snoc_eq_some_iff.1 hother
      · exact h.sole hpart hother hscans hscans'
      · exact (Custody.not_scans_opening _ _ o hscans').elim
    · exact (Custody.not_scans_opening _ _ o hscans).elim

section Answered

variable (hpart : p.cast[i]? = some (o, c)) (hstep : Custody.Step site stem o c r answer c')
  (hw : p.world.perform settings r = (answer, w'))
include hpart hstep hw

theorem Play.ScansOnce.answered (h : p.ScansOnce) :
    (p.answered i o c' w' r answer).ScansOnce := by
  have hmem : (o, c) ∈ p.cast := List.mem_of_getElem? hpart
  -- Nobody sorted out when that was granted.
  have hfirst {j : Nat} {other} (hj : p.cast[j]? = some other) (hscans : c'.Scans)
      (hother : Custody.Scans other.2) : i = j := by
    obtain hbefore | ⟨hnot, -⟩ := hstep.scans hw hscans
    · exact h.sole hpart hj hbefore hother
    · exact nomatch hnot.symm.trans (h.granted other (List.mem_of_getElem? hj) hother)
  constructor
  case granted =>
    intro part hin hscans
    obtain hold | rfl := Play.mem_answered hin
    · exact World.recovered_perform hw (h.granted part hold hscans)
    · obtain hbefore | ⟨-, hgranted⟩ := hstep.scans hw hscans
      · exact World.recovered_perform hw (h.granted (o, c) hmem hbefore)
      · exact hgranted
  case sole =>
    intro j k part other hj hk hscans hscans'
    obtain ⟨rfl, rfl⟩ | ⟨-, hj⟩ := getElem?_set_eq_some hj
    · obtain ⟨rfl, -⟩ | ⟨-, hk⟩ := getElem?_set_eq_some hk
      · rfl
      · exact hfirst hk hscans hscans'
    · obtain ⟨rfl, rfl⟩ | ⟨-, hk⟩ := getElem?_set_eq_some hk
      · exact (hfirst hj hscans' hscans).symm
      · exact h.sole hj hk hscans hscans'

omit hpart hstep in
theorem Play.not_recovered_of_answered
    (h : (p.answered i o c' w' r answer).world.memory.recovered = false) :
    p.world.memory.recovered = false :=
  Bool.eq_false_iff.2 fun hrecovered ↦
    nomatch h.symm.trans (World.recovered_perform hw hrecovered)

theorem Play.IsEarly.of_answered (h : (p.answered i o c' w' r answer).IsEarly) : p.IsEarly := by
  obtain hnot | ⟨part, hmem, hscans⟩ := h
  · exact .inl (Play.not_recovered_of_answered hw hnot)
  · obtain hold | rfl := Play.mem_answered hmem
    · exact .inr ⟨part, hold, hscans⟩
    · obtain hbefore | ⟨hnot, -⟩ := hstep.scans hw hscans
      · exact .inr ⟨(o, c), List.mem_of_getElem? hpart, hbefore⟩
      · exact .inl hnot

omit hstep in
/-- It is early only as long as whoever sorts out is not done with that. -/
theorem Play.ScansOnce.scans_of_isEarly (h : p.ScansOnce)
    (hearly : (p.answered i o c' w' r answer).IsEarly) (hc : c.Scans) : c'.Scans := by
  obtain hnot | ⟨part, hmem, hscans⟩ := hearly
  · have hgranted := h.granted (o, c) (List.mem_of_getElem? hpart) hc
    exact nomatch hgranted.symm.trans (Play.not_recovered_of_answered hw hnot)
  · obtain ⟨j, hj⟩ := List.mem_iff_getElem?.1 hmem
    obtain ⟨-, rfl⟩ | ⟨hne, hj⟩ := getElem?_set_eq_some hj
    · exact hscans
    · exact (hne (h.sole hpart hj hc hscans)).elim

theorem Play.ScansOnce.sorting_of_isEarly (h : p.ScansOnce)
    (hearly : (p.answered i o c' w' r answer).IsEarly) (hc : c = .sorting) : c' = .sorting := by
  subst hc
  have hscans := h.scans_of_isEarly hpart hw hearly trivial
  cases hstep with
  | common => rfl
  | find => split at hscans <;> exact hscans.elim

end Answered

/-! ## What is done early -/

/-- Whether, as long as it is early, there is no more to do with the dump than its having been made
in this run brings. -/
structure Play.IsTimely (p : Play (custody site stem)) : Prop where
  load : p.IsEarly → p.load + (analyses p.history).count (site.store.pairOf stem).hprof ≤
    (dumps p.history).count (site.store.pairOf stem).hprof
  away : p.IsEarly → (site.store.pairOf stem).hprof ∉ dumps p.history →
    ∀ part ∈ p.cast, Custody.IsAway part.2

/-- Whoever has nothing to do with the dump is given nothing to do but an analysis of it. -/
theorem Custody.Step.isAway (h : Custody.Step site stem o c r answer c') (hc : c.IsAway)
    (hwild : c' ≠ .wild) (hstays : c = .sorting → c' = .sorting) (hload : c'.load = 0) :
    c'.IsAway := by
  cases h with
  | wild => exact hc
  | common => exact hc
  | claim => split <;> trivial
  | @list answer =>
      cases answer with
      | error e => exact ⟨rfl, rfl⟩
      | ok found =>
          rw [Custody.listed] at hwild ⊢
          split at hwild
          next horderly =>
            rw [if_pos horderly]
            split <;> trivial
          next => exact absurd rfl hwild
  | find =>
      have hsorting := hstays rfl
      split at hsorting <;> cases hsorting
  | take =>
      rw [Custody.given] at hwild hload ⊢
      split at hwild
      next hknows =>
        rw [if_pos hknows] at hload ⊢
        exact ⟨hload, rfl⟩
      next => exact absurd rfl hwild
  | spawn => exact ⟨by rw [hc.1, Nat.zero_sub], hc.2⟩
  | defer => exact ⟨by rw [hc.1, Nat.zero_sub], hc.2⟩
  | makeRoom => split <;> trivial
  | dump => cases hload
  | dumpOther => exact ⟨rfl, rfl⟩
  | mark => cases hc.1
  | serve => cases hc.2
  | report => cases hc.2
  | remove hle howns =>
      obtain ⟨rfl, rfl⟩ := hc
      exact howns.elim (fun hlt ↦ (Nat.not_lt_zero _ hlt).elim) fun hne ↦ absurd rfl hne
  | clear => cases hc.2

theorem Play.load_enter_call (call : Call) : (p.enter (.call call)).load = p.load :=
  congrArg (p.world.load site stem + ·) (castLoad_snoc p.cast _)

theorem Play.IsKnown.load_begin (h : p.IsKnown) {position : Nat} {task : Task}
    (htask : p.world.memory.tasks[position]? = some task) :
    (Play.enter { p with world := p.world.withoutTask position } (.task task)).load = p.load := by
  have hgiven := Custody.given_of_knows (h.tasks task (List.mem_of_getElem? htask))
  have hworld := World.load_withoutTask site stem htask
  have hcast : castLoad (Play.enter { p with world := p.world.withoutTask position }
      (.task task)).cast = castLoad p.cast + (Custody.given site stem task.pairs).load :=
    castLoad_snoc p.cast _
  rw [hgiven] at hcast
  change (p.world.withoutTask position).load site stem + _ = p.world.load site stem + _
  rw [hcast, ← hworld]
  change _ + (_ + (share site stem task.pairs + 0)) = _
  omega

theorem Play.IsTimely.enter (h : p.IsTimely)
    (hrecovered : w.memory.recovered = p.world.memory.recovered)
    (hload : (Play.enter { p with world := w } o).load = p.load)
    (haway : p.load = 0 → (Custody.opening site stem o).IsAway) :
    (Play.enter { p with world := w } o).IsTimely := by
  constructor
  case load =>
    intro hearly
    rw [hload]
    exact h.load (hearly.of_enter hrecovered)
  case away =>
    intro hearly hnever part hmem
    have hbefore := hearly.of_enter hrecovered
    obtain hold | rfl := Play.mem_enter.1 hmem
    · exact h.away hbefore hnever part hold
    · have hnone : (dumps p.history).count (site.store.pairOf stem).hprof = 0 :=
        List.count_eq_zero_of_not_mem hnever
      have hload := h.load hbefore
      exact haway (by omega)

theorem Play.IsTimely.answered (h : p.IsTimely) (hscans : p.ScansOnce) (hknown : p.IsKnown)
    (hadmits : site.Admits stem) (hpart : p.cast[i]? = some (o, c))
    (hstep : Custody.Step site stem o c r answer c')
    (hw : p.world.perform settings r = (answer, w')) (hwild : c' ≠ .wild) :
    (p.answered i o c' w' r answer).IsTimely := by
  have hload (hearly : (p.answered i o c' w' r answer).IsEarly) :
      (p.answered i o c' w' r answer).load + (analyses (p.history ++
        [⟨i, o, r, answer⟩])).count (site.store.pairOf stem).hprof ≤
      (dumps (p.history ++ [⟨i, o, r, answer⟩])).count (site.store.pairOf stem).hprof := by
    have hbefore := h.load (hearly.of_answered hpart hstep hw)
    have haccount := hknown.account hadmits hpart hstep
      (hscans.sorting_of_isEarly hpart hstep hw hearly) hw
    have hanalyses : (analyses (p.history ++ [⟨i, o, r, answer⟩])).count
        (site.store.pairOf stem).hprof = (analyses p.history).count
          (site.store.pairOf stem).hprof + Moment.begun site stem ⟨i, o, r, answer⟩ :=
      count_filterMap_snoc ..
    have hdumps : (dumps (p.history ++ [⟨i, o, r, answer⟩])).count
        (site.store.pairOf stem).hprof = (dumps p.history).count
          (site.store.pairOf stem).hprof + Moment.made site stem ⟨i, o, r, answer⟩ :=
      count_filterMap_snoc ..
    omega
  constructor
  case load => exact hload
  case away =>
    intro hearly hnever part hmem
    have hbefore : (site.store.pairOf stem).hprof ∉ dumps p.history :=
      fun hin ↦ hnever (mem_filterMap_snoc.2 (.inl hin))
    have haway := h.away (hearly.of_answered hpart hstep hw) hbefore
    obtain hold | rfl := Play.mem_answered hmem
    · exact haway part hold
    · refine hstep.isAway (haway _ (List.mem_of_getElem? hpart)) hwild
        (hscans.sorting_of_isEarly hpart hstep hw hearly) ?_
      have hnone : (dumps (p.history ++ [⟨i, o, r, answer⟩])).count
          (site.store.pairOf stem).hprof = 0 := List.count_eq_zero_of_not_mem hnever
      have hle : c'.load ≤ castLoad (p.answered i o c' w' r answer).cast :=
        load_le_castLoad (getElem?_set_self_of_some hpart _)
      have hload := hload hearly
      rw [Play.load] at hload
      omega

/-! ## Together -/

/-- Whether all that is done is known, and nothing is done too early. -/
structure Play.IsOrderly (p : Play (custody site stem)) : Prop where
  grounded : p.world.IsGrounded site stem
  known : p.IsKnown
  scans : p.ScansOnce
  timely : p.IsTimely

theorem Play.isOrderly_opening (h : w.IsGrounded site stem) (htasks : w.memory.tasks = [])
    (hdeferred : w.memory.deferred = []) : (Play.opening (custody site stem) w).IsOrderly := by
  have hnone {P : Origin × Custody → Prop} : ∀ part ∈ ([] : List (Origin × Custody)), P part :=
    List.forall_mem_nil P
  refine ⟨h, ⟨?_, ?_, hnone⟩, ⟨hnone, fun hpart ↦ nomatch hpart⟩, ⟨fun _ ↦ ?_, fun _ _ ↦ hnone⟩⟩
  · intro t ht
    change t ∈ w.memory.tasks at ht
    rw [htasks] at ht
    cases ht
  · change Knows site stem (w.memory.deferred.map Job.pair)
    rw [hdeferred]
    exact knows_nil site stem
  · change w.load site stem + 0 + 0 ≤ 0
    rw [World.load, htasks, hdeferred]
    exact Nat.le_refl 0

theorem Play.IsOrderly.step {s : Scene} (h : p.IsOrderly) (hsite : site.IsRegular)
    (hadmits : site.Admits stem) (hshows : p.Shows s) (hspares : s.SparesFiles move)
    (hstep : p.Step setup move p') : p'.IsOrderly := by
  cases hstep with
  | call call =>
      refine ⟨h.grounded, h.known.enter call, h.scans.enter rfl _, ?_⟩
      exact h.timely.enter rfl (p.load_enter_call call) fun _ ↦ ⟨rfl, rfl⟩
  | @begin position task htask =>
      have hload := h.known.load_begin htask
      have hscans := h.scans.enter (w := p.world.withoutTask position) rfl (.task task)
      refine ⟨?_, h.known.begin htask, hscans, h.timely.enter rfl hload fun hnone ↦ ?_⟩
      · exact ⟨h.grounded.isAt, h.grounded.proper, h.grounded.hprof, h.grounded.tool⟩
      · have hgiven := Custody.given_of_knows (h.known.tasks task (List.mem_of_getElem? htask))
        have hshare := World.load_withoutTask site stem htask
        rw [Play.load] at hnone
        change (Custody.given site stem task.pairs).IsAway
        rw [hgiven]
        exact ⟨by omega, rfl⟩
  | ask hpart hrole hw =>
      have hwild := h.known.parts _ (List.mem_of_getElem? hpart)
      have hwild' := hrole.ne_wild hwild hw h.grounded.proper h.known.deferred
      refine ⟨h.grounded.perform (hrole.isSafe hwild hsite) hw,
        h.known.answered hpart hrole hw h.grounded.proper, h.scans.answered hpart hrole hw, ?_⟩
      exact h.timely.answered h.scans h.known hadmits hpart hrole hw hwild'
  | surround machine host process =>
      obtain ⟨hfiles, hworkingDir, hlog, htool⟩ := hspares
      rw [← hshows.world] at hfiles hworkingDir hlog
      refine ⟨h.grounded.surrounded hfiles hworkingDir hlog htool, ?_, ?_, ?_⟩
      · exact ⟨h.known.tasks, h.known.deferred, h.known.parts⟩
      · exact ⟨h.scans.granted, h.scans.sole⟩
      · exact ⟨h.timely.load, h.timely.away⟩

end HeapSentry.Supervisor
