import HeapSentry.Proofs.Supervisor.Safekeeping

/-!
# How often a dump is analysed

A dump is analysed once.  If it was made before the dumps of earlier runs were listed, it may be
analysed twice: whoever lists them takes it up, and so does whoever made it.
-/

namespace HeapSentry.Supervisor

open Storage

variable {site : Site} {stem : String} {settings : Settings} {setup : Setup} {w w' : World}
  {o : Origin} {c c' : Custody} {r : Request} {answer : Answer r} {past : List Moment}
  {p p' : Play (custody site stem)} {move : Move} {i limit : Nat}

/-! ## Dumps that are overtaken -/

/-- Whether the dumps were listed after one was made in the same run. -/
def IsOvertaken (store : DumpStore) (path : String) (history : List Moment) : Prop :=
  ∃ earlier m later, history = earlier ++ m :: later ∧ m.listsDumps store = true ∧
    path ∈ dumps earlier

theorem isOvertaken_snoc {store : DumpStore} {path : String} {history : List Moment} {m : Moment}
    (hlists : m.listsDumps store = true) (hpath : path ∈ dumps history) :
    IsOvertaken store path (history ++ [m]) := ⟨history, m, [], rfl, hlists, hpath⟩

theorem IsOvertaken.snoc {store : DumpStore} {path : String} {history : List Moment}
    (h : IsOvertaken store path history) (m : Moment) :
    IsOvertaken store path (history ++ [m]) := by
  obtain ⟨earlier, other, later, rfl, hlists, hpath⟩ := h
  exact ⟨earlier, other, later ++ [m], by simp, hlists, hpath⟩

theorem IsOvertaken.mem {store : DumpStore} {path : String} {history : List Moment}
    (h : IsOvertaken store path history) : path ∈ dumps history := by
  obtain ⟨earlier, m, later, rfl, -, hpath⟩ := h
  rw [dumps, List.filterMap_append]
  exact List.mem_append_left _ hpath

/-- Whoever is to look at the dump was so before, or lists it now. -/
theorem Custody.Step.listed (h : Custody.Step site stem o c r answer c') (hc' : c' = .sorting)
    (hground : w.IsGrounded site stem) (hw : w.perform settings r = (answer, w')) :
    c = .sorting ∨ Moment.listsDumps site.store ⟨i, o, r, answer⟩ = true ∧
      w'.machine.Has site (stem ++ "." ++ "hprof") := by
  cases h with
  | common => exact .inl hc'
  | find => exact .inl rfl
  | @list found =>
      obtain rfl : _ = w' := congrArg Prod.snd hw
      refine .inr ⟨decide_eq_true rfl, ?_⟩
      cases found with
      | error e => cases hc'
      | ok found =>
          rw [Custody.listed] at hc'
          split at hc'
          next =>
            split at hc'
            next hmem => exact hground.isAt.has_of_mem_filesIn (congrArg Prod.fst hw) hmem
            next => cases hc'
          next => cases hc'
  | claim => split at hc' <;> cases hc'
  | take => exact (Custody.not_scans_given _ _ _ (by rw [hc']; trivial)).elim
  | makeRoom => split at hc' <;> cases hc'
  | mark => split at hc' <;> cases hc'
  | _ => cases hc'

/-- Whoever looks at the dump has an analysis of it to do if there is no report. -/
theorem Custody.Step.found {annals : List Moment}
    (h : Custody.Step site stem o .sorting r answer c') (hleaves : c' ≠ .sorting)
    (hadmits : site.Admits stem) (hground : w.IsGrounded site stem)
    (hw : w.perform settings r = (answer, w'))
    (hfits : Custody.sorting.Fits (Supervisor.standing site stem w.machine annals)) :
    w'.memory = w.memory ∧ Moment.begun site stem ⟨i, o, r, answer⟩ = 0 ∧
      (c'.load = 0 ∨
        c'.load = 1 ∧ ¬ (Supervisor.standing site stem w.machine annals).json) := by
  cases h with
  | common => exact absurd rfl hleaves
  | @find size =>
      have hanswer : (w.machine.perform (.size (site.store.pairOf stem).json)).1 = size :=
        congrArg Prod.fst hw
      have hjson := isOk_size_json_iff hadmits hground hanswer hfits
      obtain rfl : _ = w' := congrArg Prod.snd hw
      refine ⟨rfl, rfl, ?_⟩
      cases size with
      | ok n => exact .inl rfl
      | error e => exact .inr ⟨rfl, fun hthere ↦ nomatch hjson.2 hthere⟩

/-! ## What a run keeps -/

/-- How it stands with the dump after what happened before and in a play. -/
def Play.standing (past : List Moment) (p : Play (custody site stem)) : Standing :=
  Supervisor.standing site stem p.world.machine (past ++ p.history)

/-- Whether a dump that is to be looked at is there, unless it was made in this run and then
overtaken. -/
structure Play.IsListed (past : List Moment) (p : Play (custody site stem)) : Prop where
  overtaken : (site.store.pairOf stem).hprof ∈ dumps p.history →
    IsOvertaken site.store (site.store.pairOf stem).hprof p.history
  there : (site.store.pairOf stem).hprof ∉ dumps p.history → (p.standing past).hprof

/-- Whether the dump is kept safe, all threads are right about it and no more than so many analyses
of it may be begun in all. -/
structure Play.Keeps (past : List Moment) (limit : Nat) (p : Play (custody site stem)) : Prop where
  sound : (p.standing past).IsSound
  fits : ∀ part ∈ p.cast, Custody.Fits (p.standing past) part.2
  pending : 0 < p.load → 0 < (p.standing past).dumped
  once : p.load + (p.standing past).analysed ≤ limit
  listed : (∃ part ∈ p.cast, part.2 = Custody.sorting) → p.IsListed past

/-- Where no file changes and nothing is asked, the dump is as safe as before. -/
theorem Play.Keeps.congr (h : p.Keeps past limit)
    (hfiles : p'.world.machine.files = p.world.machine.files) (hhistory : p'.history = p.history)
    (hload : p'.load = p.load)
    (hcast : ∀ part ∈ p'.cast, part ∈ p.cast ∨
      Custody.Fits (p.standing past) part.2 ∧ part.2 ≠ .sorting) : p'.Keeps past limit := by
  have hstanding : p'.standing past = p.standing past := by
    simp only [Play.standing, Supervisor.standing, Machine.Has, hfiles, hhistory]
  constructor
  case sound => rw [hstanding]; exact h.sound
  case pending => rw [hstanding, hload]; exact h.pending
  case once => rw [hstanding, hload]; exact h.once
  case fits =>
    intro part hmem
    rw [hstanding]
    exact (hcast part hmem).elim (h.fits part) And.left
  case listed =>
    rintro ⟨part, hmem, hsorting⟩
    obtain hold | ⟨-, hnot⟩ := hcast part hmem
    · have hlisted := h.listed ⟨part, hold, hsorting⟩
      constructor
      case overtaken => rw [hhistory]; exact hlisted.overtaken
      case there => rw [hhistory, hstanding]; exact hlisted.there
    · exact absurd hsorting hnot

theorem Play.Keeps.enter (h : p.Keeps past limit) (hmachine : w.machine = p.world.machine)
    (hload : (Play.enter { p with world := w } o).load = p.load)
    (ho : (Custody.opening site stem o).Fits (p.standing past)) :
    (Play.enter { p with world := w } o).Keeps past limit := by
  refine h.congr (congrArg Machine.files hmachine) rfl hload fun part hmem ↦ ?_
  refine (Play.mem_enter.1 hmem).imp id ?_
  rintro rfl
  refine ⟨ho, fun hsorting ↦ Custody.not_scans_opening site stem o ?_⟩
  have hsorting : Custody.opening site stem o = .sorting := hsorting
  rw [hsorting]
  trivial

section Answered

variable (h : p.Keeps past limit) (horderly : p.IsOrderly) (hsite : site.IsRegular)
  (hadmits : site.Admits stem) (hpart : p.cast[i]? = some (o, c))
  (hstep : Custody.Step site stem o c r answer c') (hw : p.world.perform settings r = (answer, w'))
  (honce : ((p.answered i o c' w' r answer).standing past).dumped ≤ 1)

theorem Play.standing_answered :
    (p.answered i o c' w' r answer).standing past =
      Supervisor.standing site stem w'.machine (past ++ p.history ++ [⟨i, o, r, answer⟩]) := by
  rw [List.append_assoc]
  rfl

theorem Play.dumped_answered :
    ((p.answered i o c' w' r answer).standing past).dumped =
      (p.standing past).dumped + Moment.made site stem ⟨i, o, r, answer⟩ := by
  rw [Play.standing_answered]
  exact dumped_snoc ..

theorem Play.analysed_answered :
    ((p.answered i o c' w' r answer).standing past).analysed =
      (p.standing past).analysed + Moment.begun site stem ⟨i, o, r, answer⟩ := by
  rw [Play.standing_answered]
  exact analysed_snoc ..

include h horderly hsite hadmits hpart hstep hw honce

theorem Play.Keeps.becomes :
    (p.standing past).Becomes ((p.answered i o c' w' r answer).standing past) c c' := by
  have hmem : (o, c) ∈ p.cast := List.mem_of_getElem? hpart
  have hle : c.load ≤ p.load := Nat.le_trans (load_le_castLoad hpart) (Nat.le_add_left _ _)
  rw [Play.standing_answered] at honce ⊢
  exact hstep.becomes hsite hadmits horderly.grounded h.sound (horderly.known.parts _ hmem) hw
    horderly.known.deferred (h.fits _ hmem)
    (fun hpos ↦ h.pending (Nat.lt_of_lt_of_le hpos hle)) honce

/-- What was listed is there as long as nobody has to do with the dump. -/
theorem Play.Keeps.isListed_answered (hlisted : p.IsListed past) (hearly : p.IsEarly) :
    (p.answered i o c' w' r answer).IsListed past := by
  have hbecomes := h.becomes horderly hsite hadmits hpart hstep hw honce
  constructor
  case overtaken =>
    intro hin
    by_cases hbefore : (site.store.pairOf stem).hprof ∈ dumps p.history
    · exact (hlisted.overtaken hbefore).snoc _
    · -- The dump is there, so it is not made now.
      have hmade : Moment.made site stem ⟨i, o, r, answer⟩ = 1 :=
        if_pos ((mem_filterMap_snoc.1 hin).resolve_left hbefore)
      have hpos := (h.sound.hprof (hlisted.there hbefore)).1
      rw [Play.dumped_answered, hmade] at honce
      omega
  case there =>
    intro hnever
    have hbefore : (site.store.pairOf stem).hprof ∉ dumps p.history :=
      fun hin ↦ hnever (mem_filterMap_snoc.2 (.inl hin))
    exact hbecomes.stays (horderly.timely.away hearly hbefore _ (List.mem_of_getElem? hpart))
      (hlisted.there hbefore)

theorem Play.Keeps.listed_answered
    (hsorting : ∃ part ∈ (p.answered i o c' w' r answer).cast, part.2 = Custody.sorting) :
    (p.answered i o c' w' r answer).IsListed past := by
  have hold (hsorting : ∃ part ∈ p.cast, part.2 = Custody.sorting) :
      (p.answered i o c' w' r answer).IsListed past := by
    refine h.isListed_answered horderly hsite hadmits hpart hstep hw honce (h.listed hsorting) ?_
    obtain ⟨part, hmem, hrole⟩ := hsorting
    exact .inr ⟨part, hmem, by rw [hrole]; trivial⟩
  obtain ⟨part, hmem, hrole⟩ := hsorting
  obtain hmem | rfl := Play.mem_answered hmem
  · exact hold ⟨part, hmem, hrole⟩
  · obtain hbefore | ⟨hlists, hhas⟩ := hstep.listed (i := i) hrole horderly.grounded hw
    · exact hold ⟨(o, c), List.mem_of_getElem? hpart, hbefore⟩
    · refine ⟨fun hin ↦ ?_, fun _ ↦ hhas⟩
      refine isOvertaken_snoc hlists ((mem_filterMap_snoc.1 hin).resolve_right fun hdumped ↦ ?_)
      cases r with
      | dumpHeap path => cases hlists
      | _ => cases hdumped

omit hsite in
/-- No step but one by which the dump is found begins more than there is to do. -/
theorem Play.Keeps.account (hlimit : 1 ≤ limit) (hstays : c = .sorting → c' = .sorting) :
    (0 < (p.answered i o c' w' r answer).load →
      0 < ((p.answered i o c' w' r answer).standing past).dumped) ∧
    (p.answered i o c' w' r answer).load +
      ((p.answered i o c' w' r answer).standing past).analysed ≤ limit := by
  have haccount := horderly.known.account hadmits hpart hstep hstays hw
  have hbefore := h.once
  rw [Play.dumped_answered] at honce
  rw [Play.dumped_answered, Play.analysed_answered]
  by_cases hdumped : 0 < (p.standing past).dumped
  · exact ⟨fun _ ↦ by omega, by omega⟩
  · have hload : p.load = 0 := by
      by_contra hne
      exact hdumped (h.pending (Nat.pos_of_ne_zero hne))
    have hanalysed : (p.standing past).analysed = 0 := by
      by_contra hne
      exact hdumped (h.sound.marked (h.sound.analysed (Nat.pos_of_ne_zero hne))).1
    exact ⟨fun _ ↦ by omega, by omega⟩

end Answered

/-- How often a dump was made, before a play and in it. -/
theorem Play.dumped_standing (past : List Moment) (p : Play (custody site stem)) :
    (p.standing past).dumped = (dumps past).count (site.store.pairOf stem).hprof +
      (dumps p.history).count (site.store.pairOf stem).hprof := by
  change (dumps (past ++ p.history)).count _ = _
  rw [dumps, List.filterMap_append, List.count_append]
  rfl

theorem Play.analysed_standing (past : List Moment) (p : Play (custody site stem)) :
    (p.standing past).analysed = (analyses past).count (site.store.pairOf stem).hprof +
      (analyses p.history).count (site.store.pairOf stem).hprof := by
  change (analyses (past ++ p.history)).count _ = _
  rw [analyses, List.filterMap_append, List.count_append]
  rfl

theorem Play.load_found (hpart : p.cast[i]? = some (o, .sorting))
    (hmemory : w'.memory = p.world.memory) :
    (p.answered i o c' w' r answer).load = p.load + c'.load := by
  have hcast : castLoad (p.answered i o c' w' r answer).cast = castLoad p.cast + c'.load :=
    castLoad_set hpart
  have hworld : w'.load site stem = p.world.load site stem :=
    World.load_eq (congrArg Memory.tasks hmemory) (congrArg Memory.deferred hmemory)
  change w'.load site stem + castLoad (p.answered i o c' w' r answer).cast = _
  rw [hcast, hworld]
  exact (Nat.add_assoc _ _ _).symm

/-- How many analyses of the dump may be begun when whoever listed it finds it without a report. -/
theorem Play.Keeps.once_found (h : p.Keeps past limit) (horderly : p.IsOrderly)
    (hpast : 0 < (analyses past).count (site.store.pairOf stem).hprof →
      0 < (dumps past).count (site.store.pairOf stem).hprof)
    (hlimit : 1 ≤ limit)
    (hovertaken : IsOvertaken site.store (site.store.pairOf stem).hprof p.history → 2 ≤ limit)
    (honce : (p.standing past).dumped ≤ 1) (hpart : p.cast[i]? = some (o, .sorting))
    (hjson : ¬ (p.standing past).json) :
    0 < (p.standing past).dumped ∧ p.load + 1 + (p.standing past).analysed ≤ limit := by
  have hmem : (o, Custody.sorting) ∈ p.cast := List.mem_of_getElem? hpart
  have hlisted := h.listed ⟨_, hmem, rfl⟩
  have hload := horderly.timely.load (.inr ⟨_, hmem, trivial⟩)
  by_cases hin : (site.store.pairOf stem).hprof ∈ dumps p.history
  · -- It was made in this run, which began an analysis of it at most.
    have htwo := hovertaken (hlisted.overtaken hin)
    have hpos := List.count_pos_iff.2 hin
    rw [Play.dumped_standing] at honce ⊢
    rw [Play.analysed_standing]
    omega
  · -- It was left by an earlier run, in which no analysis of it was begun.
    have hthere := hlisted.there hin
    have hnotMarked : ¬ (p.standing past).marked := fun hmarked ↦
      hjson ((h.sound.marked hmarked).2 hthere)
    have hanalysed : (p.standing past).analysed = 0 := by
      by_contra hne
      exact hnotMarked (h.sound.analysed (Nat.pos_of_ne_zero hne))
    rw [List.count_eq_zero_of_not_mem hin] at hload
    exact ⟨(h.sound.hprof hthere).1, by omega⟩

section Answered

variable (h : p.Keeps past limit) (horderly : p.IsOrderly) (hsite : site.IsRegular)
  (hadmits : site.Admits stem)
  (hpast : 0 < (analyses past).count (site.store.pairOf stem).hprof →
    0 < (dumps past).count (site.store.pairOf stem).hprof)
  (hlimit : 1 ≤ limit)
  (hovertaken : IsOvertaken site.store (site.store.pairOf stem).hprof p.history → 2 ≤ limit)
include h horderly hsite hadmits hpast hlimit hovertaken

omit hsite in
theorem Play.Keeps.found (hpart : p.cast[i]? = some (o, .sorting))
    (hstep : Custody.Step site stem o .sorting r answer c') (hleaves : c' ≠ .sorting)
    (hw : p.world.perform settings r = (answer, w'))
    (honce : ((p.answered i o c' w' r answer).standing past).dumped ≤ 1) :
    (0 < (p.answered i o c' w' r answer).load →
      0 < ((p.answered i o c' w' r answer).standing past).dumped) ∧
    (p.answered i o c' w' r answer).load +
      ((p.answered i o c' w' r answer).standing past).analysed ≤ limit := by
  have hfits := h.fits _ (List.mem_of_getElem? hpart)
  obtain ⟨hmemory, hbegun, hload⟩ :=
    hstep.found (i := i) hleaves hadmits horderly.grounded hw hfits
  have hafter : (p.answered i o c' w' r answer).load = p.load + c'.load :=
    Play.load_found hpart hmemory
  rw [Play.dumped_answered] at honce
  rw [Play.dumped_answered, Play.analysed_answered, hafter, hbegun]
  obtain hnone | ⟨hone, hjson⟩ := hload
  · rw [hnone]
    exact ⟨fun hpos ↦ Nat.lt_of_lt_of_le (h.pending hpos) (Nat.le_add_right _ _), h.once⟩
  · rw [hone]
    obtain ⟨hpos, hwithin⟩ := h.once_found horderly hpast hlimit hovertaken
      (Nat.le_trans (Nat.le_add_right _ _) honce) hpart hjson
    exact ⟨fun _ ↦ Nat.lt_of_lt_of_le hpos (Nat.le_add_right _ _), hwithin⟩

theorem Play.Keeps.answered (hpart : p.cast[i]? = some (o, c))
    (hstep : Custody.Step site stem o c r answer c')
    (hw : p.world.perform settings r = (answer, w'))
    (honce : ((p.answered i o c' w' r answer).standing past).dumped ≤ 1) :
    (p.answered i o c' w' r answer).Keeps past limit := by
  have hbecomes := h.becomes horderly hsite hadmits hpart hstep hw honce
  obtain ⟨hpending, hwithin⟩ : _ ∧ _ := by
    by_cases hstays : c = .sorting → c' = .sorting
    · exact h.account horderly hadmits hpart hstep hw honce hlimit hstays
    · obtain ⟨rfl, hleaves⟩ := Classical.not_imp.1 hstays
      exact h.found horderly hadmits hpast hlimit hovertaken hpart hstep hleaves hw honce
  refine ⟨hbecomes.sound, fun part hin ↦ ?_, hpending, hwithin,
    h.listed_answered horderly hsite hadmits hpart hstep hw honce⟩
  obtain hin | rfl := Play.mem_answered hin
  · exact hbecomes.leads.fits (h.fits part hin)
  · exact hbecomes.fits

theorem Play.Keeps.step {s : Scene} (hshows : p.Shows s) (hspares : s.SparesFiles move)
    (hstep : p.Step setup move p') (honce : (p'.standing past).dumped ≤ 1) :
    p'.Keeps past limit := by
  cases hstep with
  | call call => exact h.enter rfl (p.load_enter_call call) trivial
  | begin htask =>
      refine h.enter rfl (horderly.known.load_begin htask) ?_
      have hknows := horderly.known.tasks _ (List.mem_of_getElem? htask)
      rw [Custody.opening, Custody.given_of_knows hknows]
      trivial
  | ask hpart hrole hw =>
      exact h.answered horderly hsite hadmits hpast hlimit hovertaken hpart hrole hw honce
  | surround machine host process =>
      obtain ⟨hfiles, -⟩ := hspares
      rw [← hshows.world] at hfiles
      exact h.congr hfiles rfl rfl fun _ ↦ .inl

end Answered

theorem Play.dumped_step (hstep : p.Step setup move p') :
    (p.standing past).dumped ≤ (p'.standing past).dumped := by
  cases hstep with
  | ask => exact Nat.le_trans (Nat.le_add_right _ _) (Nat.le_of_eq Play.dumped_answered.symm)
  | _ => exact Nat.le_refl _

theorem IsOvertaken.step {store : DumpStore} {path : String}
    (h : IsOvertaken store path p.history) (hstep : p.Step setup move p') :
    IsOvertaken store path p'.history := by
  cases hstep with
  | ask => exact h.snoc _
  | _ => exact h

/-- Whether a play is orderly, and keeps the dump safe if that was made once at most and may be
analysed often enough. -/
structure Play.IsSafe (past : List Moment) (limit : Nat) (p : Play (custody site stem)) :
    Prop where
  orderly : p.IsOrderly
  keeps : (p.standing past).dumped ≤ 1 →
    (IsOvertaken site.store (site.store.pairOf stem).hprof p.history → 2 ≤ limit) →
      p.Keeps past limit

theorem Play.IsSafe.step {s : Scene} (h : p.IsSafe past limit) (hsite : site.IsRegular)
    (hadmits : site.Admits stem)
    (hpast : 0 < (analyses past).count (site.store.pairOf stem).hprof →
      0 < (dumps past).count (site.store.pairOf stem).hprof)
    (hlimit : 1 ≤ limit) (hshows : p.Shows s) (hspares : s.SparesFiles move)
    (hstep : p.Step setup move p') : p'.IsSafe past limit where
  orderly := h.orderly.step hsite hadmits hshows hspares hstep
  keeps honce hovertaken := by
    have hbefore := h.keeps (Nat.le_trans (Play.dumped_step hstep) honce)
      fun hover ↦ hovertaken (hover.step hstep)
    exact hbefore.step h.orderly hsite hadmits hpast hlimit
      (fun hover ↦ hovertaken (hover.step hstep)) hshows hspares hstep honce

end HeapSentry.Supervisor
