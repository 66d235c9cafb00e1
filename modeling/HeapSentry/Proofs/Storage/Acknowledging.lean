import HeapSentry.Proofs.Storage.Keeping

/-!
# What a ledger on disk acknowledges

A change that could not be saved stays in memory, and goes to the file with the next change that is
saved.  A launch that is known already is acknowledged without saving anything, even if the known
one never got to the file.
-/

namespace HeapSentry.Storage

open Ledger

/-- How much was recorded of a version. -/
def LedgerEntry.weight (e : LedgerEntry) : Nat :=
  e.analysisCount + if e.firstLaunchMs.isSome then 1 else 0

theorem LedgerEntry.eq_iff (e e' : LedgerEntry) : e = e' ↔
    e.analysisCount = e'.analysisCount ∧ e.firstLaunchMs = e'.firstLaunchMs := by
  cases e
  cases e'
  rw [LedgerEntry.mk.injEq]

theorem Ledger.Call.weight_change {l : Ledger} {c : Call} (h : c.changes l = true) :
    (c.change (l.entry c.version)).weight = (l.entry c.version).weight + 1 := by
  cases c with
  | increment v => exact Nat.add_right_comm _ _ _
  | launch v nowMs =>
      have hnew : (l.entry v).firstLaunchMs = none := Option.isNone_iff_eq_none.1 h
      simp [Call.change, Call.version, LedgerEntry.weight, hnew]
  | count v => cases h
  | firstLaunch v => cases h

namespace Desk

variable {d : Desk} {m : Machine} {path : String} {c : Call} {trouble : Machine.Trouble}
  {turns : List Turn} {versions : List String} {v : String}

/-- Whether a call leaves the file as it was if it fails, and counts go on to fit 32 bits. -/
structure FairAt (d : Desk) (c : Call) (trouble : Machine.Trouble) : Prop where
  kept : (d.handle c trouble).1.isFailed = true →
    (d.handle c trouble).2.machine.textAt d.file.path = d.machine.textAt d.file.path
  count : (d.handle c trouble).2.file.ledger.analysisCount c.version < 2 ^ 32

def Fair (d : Desk) : List Turn → Prop
  | [] => True
  | .call c trouble :: turns => d.FairAt c trouble ∧ (d.handle c trouble).2.Fair turns
  | .reopen :: turns => d.reopen.Fair turns

theorem fair_append (d : Desk) (turns more : List Turn) :
    d.Fair (turns ++ more) ↔ d.Fair turns ∧ (d.run turns).Fair more := by
  induction turns generalizing d with
  | nil => exact (and_iff_right trivial).symm
  | cons turn turns ih =>
      cases turn with
      | call c trouble =>
          rw [List.cons_append, Fair, Fair, ih, and_assoc]
          rfl
      | reopen => exact ih d.reopen

/-- The versions with changes that are not in the file, after one more call. -/
def unsavedAfter (d : Desk) (versions : List String) (c : Call) (trouble : Machine.Trouble) :
    List String :=
  if c.changes d.file.ledger then
    match (d.handle c trouble).1 with
    | .failed _ => c.version :: versions
    | _ => []
  else versions

/-- The versions with changes that could not be saved since all of the ledger was saved or loaded
the last time. -/
def unsaved (d : Desk) (versions : List String) : List Turn → List String
  | [] => versions
  | .call c trouble :: turns =>
    (d.handle c trouble).2.unsaved (d.unsavedAfter versions c trouble) turns
  | .reopen :: turns => d.reopen.unsaved [] turns

theorem unsavedAfter_of_ok (hchanges : c.changes d.file.ledger = true)
    (hok : (d.handle c trouble).1.isFailed = false) : d.unsavedAfter versions c trouble = [] := by
  rw [unsavedAfter, if_pos hchanges]
  split
  next e he =>
    rw [he] at hok
    cases hok
  next => rfl

theorem unsavedAfter_of_idle (hidle : c.changes d.file.ledger = false) :
    d.unsavedAfter versions c trouble = versions := by
  rw [unsavedAfter, hidle, if_neg Bool.false_ne_true]

/-- Whether what is in memory is what is in the file, but for the changes that could not be
saved. -/
structure Tracks (d : Desk) (versions : List String) : Prop where
  sorted : d.file.ledger.IsSorted
  fits : d.file.ledger.Fits
  agrees : ∀ v ∉ versions, d.file.ledger.entry v = (d.machine.ledgerAt d.file.path).entry v
  /-- Each change that could not be saved weighs one. -/
  weight : ∀ v, (d.file.ledger.entry v).weight =
    ((d.machine.ledgerAt d.file.path).entry v).weight + versions.count v

theorem tracks_of_stored (hsorted : d.file.ledger.IsSorted) (hfits : d.file.ledger.Fits)
    (hstored : d.machine.ledgerAt d.file.path = d.file.ledger) : d.Tracks [] where
  sorted := hsorted
  fits := hfits
  agrees v _ := by rw [hstored]
  weight v := by rw [hstored, List.count_nil, Nat.add_zero]

theorem tracks_opened (m : Machine) (path : String) : (opened m path).Tracks [] := by
  rw [opened_eq]
  obtain ⟨hsorted, hfits⟩ := m.isSorted_and_fits_ledgerAt path
  exact tracks_of_stored hsorted hfits rfl

theorem Tracks.handle (h : d.Tracks versions) (hfair : d.FairAt c trouble) :
    (d.handle c trouble).2.Tracks (d.unsavedAfter versions c trouble) := by
  have hsorted := isSorted_handle h.sorted c
  have hcount := hfair.count
  rcases d.handle_cases c trouble with ⟨hidle, heq⟩ | ⟨hchanges, m', htext, heq⟩ |
    ⟨hchanges, e, m', heq⟩
  · rw [unsavedAfter_of_idle hidle, heq]
    exact h
  · have hok : (d.handle c trouble).1.isFailed = false := by
      rw [heq]
      exact isFailed_handle _ c
    rw [unsavedAfter_of_ok hchanges hok]
    rw [heq] at hcount ⊢
    have hfits := fits_handle h.sorted h.fits hcount
    exact tracks_of_stored hsorted hfits (Machine.ledgerAt_of_textAt htext hsorted hfits)
  -- The change stays in memory, so the version is one of those that are not saved.
  · have hkept := hfair.kept (by rw [heq]; rfl)
    have hunsaved : d.unsavedAfter versions c trouble = c.version :: versions := by
      rw [unsavedAfter, if_pos hchanges, heq]
    rw [hunsaved]
    rw [heq] at hcount hkept ⊢
    have hstored : m'.ledgerAt d.file.path = d.machine.ledgerAt d.file.path := by
      rw [Machine.ledgerAt, hkept, Machine.ledgerAt]
    refine ⟨hsorted, fits_handle h.sorted h.fits hcount, fun v hv ↦ ?_, fun v ↦ ?_⟩
    · rw [List.mem_cons, not_or] at hv
      change (d.file.ledger.handle c).2.entry v = (m'.ledgerAt d.file.path).entry v
      rw [hstored, entry_handle h.sorted, if_neg hv.1, h.agrees v hv.2]
    · change ((d.file.ledger.handle c).2.entry v).weight =
        ((m'.ledgerAt d.file.path).entry v).weight + _
      have hweight := h.weight v
      rw [hstored, entry_handle h.sorted]
      by_cases hv : v = c.version
      · subst hv
        rw [if_pos rfl, Call.weight_change hchanges, List.count_cons_self]
        omega
      · rw [if_neg hv, List.count_cons_of_ne (Ne.symm hv), hweight]

theorem Tracks.run (h : d.Tracks versions) (hfair : d.Fair turns) :
    (d.run turns).Tracks (d.unsaved versions turns) := by
  induction turns generalizing d versions with
  | nil => exact h
  | cons turn turns ih =>
      cases turn with
      | call c trouble => exact ih (h.handle hfair.1) hfair.2
      | reopen => exact ih (tracks_opened _ _) hfair

/-- What is loaded again is what is in memory, unless a change could not be saved. -/
theorem Tracks.reopen_entry_eq_iff (h : d.Tracks versions) (v : String) :
    d.reopen.file.ledger.entry v = d.file.ledger.entry v ↔ v ∉ versions := by
  rw [reopen, opened_eq]
  constructor
  -- The change that is missing in the file shows in the weights.
  · intro heq hv
    have hweight := h.weight v
    have hpos := List.count_pos_iff.2 hv
    change (d.machine.ledgerAt d.file.path).entry v = _ at heq
    rw [heq] at hweight
    omega
  · intro hv
    exact (h.agrees v hv).symm

/-- What was acknowledged is loaded again just if the call had something to save or nothing of the
version was left unsaved before. -/
theorem acknowledged_reopened_iff (hfair : (opened m path).Fair (turns ++ [.call c trouble]))
    (hok : (((opened m path).run turns).handle c trouble).1.isFailed = false) :
    let d := (opened m path).run turns
    let after := (d.handle c trouble).2
    (after.reopen.file.ledger.analysisCount c.version =
        after.file.ledger.analysisCount c.version ∧
      after.reopen.file.ledger.firstLaunchMs c.version =
        after.file.ledger.firstLaunchMs c.version) ↔
    (c.changes d.file.ledger = true ∨ c.version ∉ (opened m path).unsaved [] turns) := by
  intro d after
  obtain ⟨hbefore, hlast, -⟩ := (fair_append ..).1 hfair
  have htracks : d.Tracks _ := (tracks_opened m path).run hbefore
  have hafter : after.Tracks _ := htracks.handle hlast
  have hentry := hafter.reopen_entry_eq_iff c.version
  rw [LedgerEntry.eq_iff] at hentry
  refine hentry.trans ?_
  cases hchanges : c.changes d.file.ledger with
  | true =>
      rw [unsavedAfter_of_ok hchanges hok]
      simp
  | false =>
      rw [unsavedAfter_of_idle hchanges]
      simp

theorem acknowledged_reopened_late :
    let turns := [.call (.launch "1.0" 5) ⟨none, some .notFound⟩, .call (.increment "2.0")]
    let d := (opened {} "ledger.json").run turns
    (d.handle (.launch "1.0" 7) {}).2.reopen.file.ledger.firstLaunchMs "1.0" =
      (d.handle (.launch "1.0" 7) {}).2.file.ledger.firstLaunchMs "1.0" := by
  intro turns d
  have hfair : (opened {} "ledger.json").Fair (turns ++ [.call (.launch "1.0" 7)]) := by
    refine ⟨⟨?_, ?_⟩, ⟨?_, ?_⟩, ⟨?_, ?_⟩, trivial⟩
    all_goals decide +kernel
  have hok : (d.handle (.launch "1.0" 7) {}).1.isFailed = false := by decide +kernel
  have hsaved : "1.0" ∉ (opened {} "ledger.json").unsaved [] turns := by decide +kernel
  exact ((acknowledged_reopened_iff hfair hok).2 (.inr hsaved)).2

/-- A machine with a directory where the ledger should be. -/
def blockedMachine : Machine := { files := FileTree.empty.insert ["ledger.json"] .dir }

theorem acknowledged_not_always_reopened :
    ¬ ∀ (m : Machine) (path : String) (turns : List Turn) (c : Call) (trouble : Machine.Trouble),
      (opened m path).Fair (turns ++ [.call c trouble]) →
      (∃ v, c = .increment v ∨ ∃ nowMs, c = .launch v nowMs) →
      (((opened m path).run turns).handle c trouble).1.isFailed = false →
      let after := (((opened m path).run turns).handle c trouble).2
      after.reopen.file.ledger.analysisCount c.version =
          after.file.ledger.analysisCount c.version ∧
        after.reopen.file.ledger.firstLaunchMs c.version =
          after.file.ledger.firstLaunchMs c.version := by
  intro h
  let c : Call := .launch "1.0" 5
  have hfair : (opened blockedMachine "ledger.json").Fair ([.call c] ++ [.call c]) := by
    refine ⟨⟨?_, ?_⟩, ⟨?_, ?_⟩, trivial⟩
    all_goals decide +kernel
  have hok : (((opened blockedMachine "ledger.json").run [.call c]).handle c {}).1.isFailed =
      false := by decide +kernel
  have hsame := h blockedMachine "ledger.json" [.call c] c {} hfair ⟨"1.0", .inr ⟨5, rfl⟩⟩ hok
  exact absurd hsame.2 (by decide +kernel)

end Desk

end HeapSentry.Storage
