import HeapSentry.Proofs.Supervisor.Surroundings

/-!
# How it stands with a dump

A dump that is there was made, and a report that is there was begun as a mark.  Once a dump was
marked, it is not there without its report, and an analysis that was begun was marked before.
-/

namespace HeapSentry.Supervisor

open Storage Storage.FileTree

/-! ## What the annals tell -/

namespace Moment

/-- The dump whose analysis was begun: the first thing that an analysis asks for is its size. -/
def analysed? (m : Moment) : Option String :=
  match m.request with
  | .service (.size path) => some path
  | _ => none

/-- The report that was created empty, as a mark. -/
def marked? : Moment → Option String
  | ⟨_, _, .machine (.write path content), .ok ()⟩ => if content.size = 0 then some path else none
  | _ => none

end Moment

def analyses (annals : List Moment) : List String := annals.filterMap Moment.analysed?

def markings (annals : List Moment) : List String := annals.filterMap Moment.marked?

/-- How it stands with a dump. -/
structure Standing where
  /-- The dump is there. -/
  hprof : Prop
  /-- Its report is there. -/
  json : Prop
  /-- Their directory is there. -/
  room : Prop
  /-- How often the dump was made. -/
  dumped : Nat
  /-- How often its analysis was begun. -/
  analysed : Nat
  /-- Its report was created as a mark. -/
  marked : Prop

def standing (site : Site) (stem : String) (m : Machine) (annals : List Moment) : Standing where
  hprof := m.Has site (stem ++ "." ++ "hprof")
  json := m.Has site (stem ++ "." ++ "json")
  room := m.files.HasDir site.dir
  dumped := (dumps annals).count (site.store.pairOf stem).hprof
  analysed := (analyses annals).count (site.store.pairOf stem).hprof
  marked := (site.store.pairOf stem).json ∈ markings annals

/-- Whether what is there and what happened agree. -/
structure Standing.IsSound (s : Standing) : Prop where
  hprof : s.hprof → 0 < s.dumped ∧ s.room
  json : s.json → s.marked
  marked : s.marked → 0 < s.dumped ∧ (s.hprof → s.json)
  analysed : 0 < s.analysed → s.marked

/-- Whether a thread is right about the dump. -/
def Custody.Fits (s : Standing) : Custody → Prop
  | .sorting | .ready => s.room
  | .busy _ .marked | .busy _ .served => s.marked
  | .busy _ .removed => 0 < s.dumped ∧ ¬ s.hprof
  | _ => True

/-- Whether a thread has nothing to do with the dump yet. -/
def Custody.IsAway : Custody → Prop
  | .wild => False
  | .busy n grip => n = 0 ∧ grip = .free
  | _ => True

namespace Standing

variable {s s' : Standing} {c : Custody}

/-- What can become of a dump. -/
structure Leads (s s' : Standing) : Prop where
  room : s.room → s'.room
  dumped : s.dumped ≤ s'.dumped
  marked : s.marked → s'.marked
  gone : 0 < s.dumped → ¬ s.hprof → ¬ s'.hprof

/-- Whether nothing becomes of a dump. -/
structure IsSame (s s' : Standing) : Prop where
  hprof : s'.hprof ↔ s.hprof
  json : s'.json ↔ s.json
  room : s.room → s'.room
  dumped : s'.dumped = s.dumped
  analysed : s'.analysed = s.analysed
  marked : s'.marked ↔ s.marked

theorem Leads.fits (h : s.Leads s') (hc : c.Fits s) : c.Fits s' := by
  cases c with
  | sorting => exact h.room hc
  | ready => exact h.room hc
  | busy n grip =>
      cases grip with
      | free => trivial
      | marked => exact h.marked hc
      | served => exact h.marked hc
      | removed => exact ⟨Nat.lt_of_lt_of_le hc.1 h.dumped, h.gone hc.1 hc.2⟩
  | _ => trivial

theorem IsSame.leads (h : s.IsSame s') : s.Leads s' where
  room := h.room
  dumped := Nat.le_of_eq h.dumped.symm
  marked := h.marked.2
  gone _ := h.hprof.not.2

theorem IsSame.fits (h : s.IsSame s') (hc : c.Fits s) : c.Fits s' := h.leads.fits hc

theorem IsSame.isSound (h : s.IsSame s') (hs : s.IsSound) : s'.IsSound where
  hprof hthere := by
    rw [h.dumped]
    exact (hs.hprof (h.hprof.1 hthere)).imp id h.room
  json hthere := h.marked.2 (hs.json (h.json.1 hthere))
  marked hmarked := by
    rw [h.dumped]
    refine (hs.marked (h.marked.1 hmarked)).imp id fun hthere hprof ↦ ?_
    exact h.json.2 (hthere (h.hprof.1 hprof))
  analysed hpos := by
    rw [h.analysed] at hpos
    exact h.marked.2 (hs.analysed hpos)

end Standing

/-! ## What requests tell and do -/

variable {site : Site} {stem : String} {settings : Settings} {setup : Setup} {w w' : World}
  {o : Origin} {c c' : Custody} {r : Request} {answer : Answer r} {annals past : List Moment}
  {p p' : Play (custody site stem)} {move : Move} {i : Nat} {m m' : Machine}

/-- Whether a moment tells nothing about the dump. -/
structure Moment.IsSilent (site : Site) (stem : String) (x : Moment) : Prop where
  dumped : x.dumped? ≠ some (site.store.pairOf stem).hprof
  analysed : x.analysed? ≠ some (site.store.pairOf stem).hprof
  marked : x.marked? ≠ some (site.store.pairOf stem).json

section Snoc

variable {x : Moment}

theorem dumped_snoc (m m' : Machine) (annals : List Moment) (x : Moment) :
    (standing site stem m' (annals ++ [x])).dumped = (standing site stem m annals).dumped +
      if x.dumped? = some (site.store.pairOf stem).hprof then 1 else 0 :=
  count_filterMap_snoc ..

theorem analysed_snoc (m m' : Machine) (annals : List Moment) (x : Moment) :
    (standing site stem m' (annals ++ [x])).analysed = (standing site stem m annals).analysed +
      if x.analysed? = some (site.store.pairOf stem).hprof then 1 else 0 :=
  count_filterMap_snoc ..

theorem marked_snoc (m m' : Machine) (annals : List Moment) (x : Moment) :
    (standing site stem m' (annals ++ [x])).marked ↔ (standing site stem m annals).marked ∨
      x.marked? = some (site.store.pairOf stem).json :=
  mem_filterMap_snoc

theorem dumped_snoc_of_ne (h : x.dumped? ≠ some (site.store.pairOf stem).hprof) :
    (standing site stem m' (annals ++ [x])).dumped = (standing site stem m annals).dumped := by
  rw [dumped_snoc m, if_neg h, Nat.add_zero]

theorem analysed_snoc_of_ne (h : x.analysed? ≠ some (site.store.pairOf stem).hprof) :
    (standing site stem m' (annals ++ [x])).analysed = (standing site stem m annals).analysed := by
  rw [analysed_snoc m, if_neg h, Nat.add_zero]

theorem marked_snoc_of_ne (h : x.marked? ≠ some (site.store.pairOf stem).json) :
    (standing site stem m' (annals ++ [x])).marked ↔ (standing site stem m annals).marked :=
  (marked_snoc m ..).trans (or_iff_left h)

end Snoc

theorem isSame_of_spared (h : Machine.Spared site stem m m') {x : Moment}
    (hx : x.IsSilent site stem) (annals : List Moment) :
    (standing site stem m annals).IsSame (standing site stem m' (annals ++ [x])) where
  hprof := h.hprof
  json := h.json
  room := h.room
  dumped := dumped_snoc_of_ne hx.dumped
  analysed := analysed_snoc_of_ne hx.analysed
  marked := marked_snoc_of_ne hx.marked

section Common

variable (hadmits : site.Admits stem)
include hadmits

theorem Request.IsCommon.isSilent (h : r.IsCommon site stem) (i : Nat) (o : Origin)
    (answer : Answer r) : Moment.IsSilent site stem ⟨i, o, r, answer⟩ := by
  have hnone {x : Option String} {path : String} (hx : x = none) : x ≠ some path := by
    rw [hx]
    exact Option.some_ne_none path |>.symm
  cases r with
  | machine r =>
      refine ⟨hnone rfl, hnone rfl, ?_⟩
      cases r with
      | write path content =>
          cases answer with
          | error e => exact hnone rfl
          | ok u =>
              intro hmarked
              have hpath : path = (site.store.pairOf stem).json := by
                rw [Moment.marked?] at hmarked
                split at hmarked
                next => exact Option.some.inj hmarked
                next => cases hmarked
              refine h.2 ?_
              rw [hpath, ← Site.place_absolute_join site hadmits.entry_json.isName
                hadmits.entry_json.ne_up]
              exact visits_place _
      | _ => exact hnone rfl
  | service r =>
      refine ⟨hnone rfl, ?_, hnone rfl⟩
      cases r with
      | size path => exact fun hanalysed ↦ h (Option.some.inj hanalysed)
      | _ => exact hnone rfl
  | dumpHeap path => exact h.elim
  | _ => exact ⟨hnone rfl, hnone rfl, hnone rfl⟩

omit hadmits in
theorem Request.IsCommon.spared (h : r.IsCommon site stem) (hm : w.machine.IsAt site)
    (hw : w.perform settings r = (answer, w')) : Machine.Spared site stem w.machine w'.machine := by
  obtain rfl : _ = w' := congrArg Prod.snd hw
  cases r with
  | machine r => exact hm.spared_perform h
  | service r =>
      cases r with
      | size path => exact .refl site stem _
      | _ => exact hm.spared_perform h
  | dumpHeap path => exact h.elim
  | _ => exact .refl site stem _

end Common

/-! ## What a step makes of the dump -/

/-- What a step of a thread makes of a dump. -/
structure Standing.Becomes (s s' : Standing) (c c' : Custody) : Prop where
  leads : s.Leads s'
  /-- Whoever has nothing to do with the dump lets it be. -/
  stays : c.IsAway → s.hprof → s'.hprof
  sound : s'.IsSound
  fits : c'.Fits s'

theorem Standing.IsSame.becomes {s s' : Standing} (h : s.IsSame s') (hs : s.IsSound)
    (hfits : c'.Fits s') : s.Becomes s' c c' :=
  ⟨h.leads, fun _ ↦ h.hprof.2, h.isSound hs, hfits⟩

section Becomes

variable {s s' : Standing}

/-- A report is written, after which the dump is marked. -/
theorem Standing.becomes_written (hs : s.IsSound) (hprof : s'.hprof ↔ s.hprof)
    (hroom : s.room → s'.room) (hdumped : s'.dumped = s.dumped) (hjson : s'.json)
    (hmarked : s'.marked) (hpos : 0 < s.dumped) (hfits : c'.Fits s') : s.Becomes s' c c' where
  leads := ⟨hroom, Nat.le_of_eq hdumped.symm, fun _ ↦ hmarked, fun _ ↦ hprof.not.2⟩
  stays _ := hprof.2
  sound := {
    hprof := fun hthere ↦ by
      rw [hdumped]
      exact (hs.hprof (hprof.1 hthere)).imp id hroom
    json := fun _ ↦ hmarked
    marked := fun _ ↦ ⟨hdumped ▸ hpos, fun _ ↦ hjson⟩
    analysed := fun _ ↦ hmarked }
  fits := hfits

/-- An analysis of a dump that was marked is begun. -/
theorem Standing.becomes_analysed (hs : s.IsSound) (hprof : s'.hprof ↔ s.hprof)
    (hjson : s'.json ↔ s.json) (hroom : s.room → s'.room) (hdumped : s'.dumped = s.dumped)
    (hmarked : s'.marked ↔ s.marked) (hmark : s.marked) (hfits : c'.Fits s') :
    s.Becomes s' c c' where
  leads := ⟨hroom, Nat.le_of_eq hdumped.symm, hmarked.2, fun _ ↦ hprof.not.2⟩
  stays _ := hprof.2
  sound := {
    hprof := fun hthere ↦ by
      rw [hdumped]
      exact (hs.hprof (hprof.1 hthere)).imp id hroom
    json := fun _ ↦ hmarked.2 hmark
    marked := fun _ ↦ by
      rw [hdumped]
      exact (hs.marked hmark).imp id fun h hthere ↦ hjson.2 (h (hprof.1 hthere))
    analysed := fun _ ↦ hmarked.2 hmark }
  fits := hfits

/-- The dump or, after that, its report is removed. -/
theorem Standing.becomes_removed (hs : s.IsSound) (hgone : ¬ s'.hprof)
    (hjson : s'.json → s.json) (hroom : s.room → s'.room) (hdumped : s'.dumped = s.dumped)
    (hanalysed : s'.analysed = s.analysed) (hmarked : s'.marked ↔ s.marked) (hbusy : ¬ c.IsAway)
    (hfits : c'.Fits s') : s.Becomes s' c c' where
  leads := ⟨hroom, Nat.le_of_eq hdumped.symm, hmarked.2, fun _ _ ↦ hgone⟩
  stays haway := (hbusy haway).elim
  sound := {
    hprof := fun hthere ↦ (hgone hthere).elim
    json := fun hthere ↦ hmarked.2 (hs.json (hjson hthere))
    marked := fun hmark ↦
      ⟨hdumped ▸ (hs.marked (hmarked.1 hmark)).1, fun hthere ↦ (hgone hthere).elim⟩
    analysed := fun hpos ↦ hmarked.2 (hs.analysed (hanalysed ▸ hpos)) }
  fits := hfits

/-- The dump is made, for the first time. -/
theorem Standing.becomes_dumped (hs : s.IsSound) (hjson : s'.json ↔ s.json) (hroom : s'.room)
    (hdumped : s'.dumped = s.dumped + 1) (hanalysed : s'.analysed = s.analysed)
    (hmarked : s'.marked ↔ s.marked) (honce : s'.dumped ≤ 1) (hfits : c'.Fits s') :
    s.Becomes s' c c' := by
  have hnever : ¬ 0 < s.dumped := by omega
  have hnotMarked : ¬ s.marked := fun hmark ↦ hnever (hs.marked hmark).1
  constructor
  case leads =>
    exact ⟨fun _ ↦ hroom, by omega, hmarked.2, fun hpos ↦ (hnever hpos).elim⟩
  case stays => exact fun _ hthere ↦ (hnever (hs.hprof hthere).1).elim
  case fits => exact hfits
  case sound =>
    constructor
    case hprof => exact fun _ ↦ ⟨by omega, hroom⟩
    case json => exact fun hthere ↦ (hnotMarked (hs.json (hjson.1 hthere))).elim
    case marked => exact fun hmark ↦ (hnotMarked (hmarked.1 hmark)).elim
    case analysed => exact fun hpos ↦ (hnotMarked (hs.analysed (hanalysed ▸ hpos))).elim

end Becomes

theorem Moment.isSilent_of_none {x : Moment}
    (h : x.dumped? = none ∧ x.analysed? = none ∧ x.marked? = none) : x.IsSilent site stem where
  dumped hdumped := nomatch h.1.symm.trans hdumped
  analysed hanalysed := nomatch h.2.1.symm.trans hanalysed
  marked hmarked := nomatch h.2.2.symm.trans hmarked

theorem Custody.Fits.busy {s : Standing} {n m : Nat} {grip : Grip}
    (h : Custody.Fits s (.busy n grip)) : Custody.Fits s (.busy m grip) := by
  cases grip <;> exact h

end HeapSentry.Supervisor
