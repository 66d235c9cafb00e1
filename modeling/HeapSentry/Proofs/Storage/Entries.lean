import HeapSentry.Storage.Ledger
import Mathlib.Data.String.Basic

/-!
# Entries of a ledger

The entries of a ledger stand in the order of their versions.  A change of one entry keeps this
order and leaves the entries of other versions as they are, so a ledger is what its list of entries
says.
-/

namespace HeapSentry.Storage.Ledger

variable {l : Ledger} {version other : String} {change : LedgerEntry → LedgerEntry}
  {entries : List (String × LedgerEntry)}

/-- Whether entries stand in increasing order of their versions. -/
def InOrder (entries : List (String × LedgerEntry)) : Prop :=
  entries.Pairwise fun p q ↦ p.1 < q.1

def IsSorted (l : Ledger) : Prop := InOrder l.entries

theorem isSorted_empty : empty.IsSorted := List.Pairwise.nil

/-! ## What a change does -/

theorem lookup_cons_of_ne (h : other ≠ version) (e : LedgerEntry) :
    ((version, e) :: entries).lookup other = entries.lookup other := by
  rw [List.lookup_cons, beq_eq_false_iff_ne.2 h]

theorem lookup_eq_none_of_lt (h : ∀ p ∈ entries, version < p.1) :
    entries.lookup version = none := by
  rw [List.lookup_eq_none_iff]
  intro p hp
  simpa using ne_of_lt (h p hp)

theorem InOrder.lt_of_lt {v : String} {e : LedgerEntry} (h : InOrder ((v, e) :: entries))
    (hlt : version < v) : ∀ p ∈ (v, e) :: entries, version < p.1 := by
  intro p hp
  rcases List.mem_cons.1 hp with rfl | hp
  · exact hlt
  · exact lt_trans hlt ((List.pairwise_cons.1 h).1 p hp)

theorem lookup_updateEntries (h : InOrder entries) :
    (updateEntries version change entries).lookup other =
      if other = version then some (change ((entries.lookup version).getD {}))
      else entries.lookup other := by
  induction entries with
  | nil =>
      rw [updateEntries]
      by_cases heq : other = version
      · simp [heq]
      · rw [lookup_cons_of_ne heq, if_neg heq]
  | cons p entries ih =>
      obtain ⟨v, e⟩ := p
      rw [updateEntries]
      by_cases hlt : version < v
      · rw [if_pos hlt, lookup_eq_none_of_lt (h.lt_of_lt hlt)]
        by_cases heq : other = version
        · simp [heq]
        · rw [lookup_cons_of_ne heq, if_neg heq]
      · rw [if_neg hlt]
        by_cases hv : v = version
        · subst hv
          by_cases heq : other = v
          · simp [heq]
          · rw [if_pos rfl, lookup_cons_of_ne heq, lookup_cons_of_ne heq, if_neg heq]
        · rw [if_neg hv, lookup_cons_of_ne (Ne.symm hv)]
          by_cases hother : other = v
          · subst hother
            simp [hv]
          · rw [lookup_cons_of_ne hother, lookup_cons_of_ne hother]
            exact ih (List.pairwise_cons.1 h).2

/-- A change of one entry leaves those of other versions as they are. -/
theorem entry_update (h : l.IsSorted) : (l.update version change).entry other =
    if other = version then change (l.entry version) else l.entry other := by
  rw [entry, update, lookup_updateEntries h]
  split
  · rfl
  · rfl

theorem analysisCount_recordLaunch (h : l.IsSorted) (version other : String) (nowMs : Int) :
    (l.recordLaunch version nowMs).analysisCount other = l.analysisCount other := by
  rw [analysisCount, recordLaunch, entry_update h]
  split
  next heq => rw [heq, analysisCount]
  next => rfl

theorem mem_updateEntries {p : String × LedgerEntry}
    (hp : p ∈ updateEntries version change entries) :
    (p.1 = version ∧ ∃ e, p.2 = change e ∧ (e = {} ∨ (version, e) ∈ entries)) ∨ p ∈ entries := by
  induction entries with
  | nil =>
      obtain rfl := List.mem_singleton.1 hp
      exact .inl ⟨rfl, {}, rfl, .inl rfl⟩
  | cons q entries ih =>
      obtain ⟨v, e⟩ := q
      rw [updateEntries] at hp
      split at hp
      · rcases List.mem_cons.1 hp with rfl | hp
        · exact .inl ⟨rfl, {}, rfl, .inl rfl⟩
        · exact .inr hp
      · split at hp
        next heq =>
          subst heq
          rcases List.mem_cons.1 hp with rfl | hp
          · exact .inl ⟨rfl, e, rfl, .inr List.mem_cons_self⟩
          · exact .inr (List.mem_cons_of_mem _ hp)
        next =>
          rcases List.mem_cons.1 hp with rfl | hp
          · exact .inr List.mem_cons_self
          · rcases ih hp with ⟨hversion, e', he', hknown⟩ | hold
            · exact .inl ⟨hversion, e', he', hknown.imp id (List.mem_cons_of_mem _)⟩
            · exact .inr (List.mem_cons_of_mem _ hold)

theorem inOrder_updateEntries (h : InOrder entries) :
    InOrder (updateEntries version change entries) := by
  induction entries with
  | nil => exact List.pairwise_singleton _ _
  | cons p entries ih =>
      obtain ⟨v, e⟩ := p
      obtain ⟨hfirst, hrest⟩ := List.pairwise_cons.1 h
      rw [updateEntries]
      by_cases hlt : version < v
      · rw [if_pos hlt]
        exact List.pairwise_cons.2 ⟨h.lt_of_lt hlt, h⟩
      · rw [if_neg hlt]
        by_cases hv : v = version
        · rw [if_pos hv]
          exact List.pairwise_cons.2 ⟨hv ▸ hfirst, hrest⟩
        · rw [if_neg hv]
          refine List.pairwise_cons.2 ⟨?_, ih hrest⟩
          intro p hp
          rcases mem_updateEntries hp with ⟨hversion, -⟩ | hold
          · rw [hversion]
            exact lt_of_le_of_ne (not_lt.1 hlt) hv
          · exact hfirst p hold

theorem IsSorted.update (h : l.IsSorted) (version : String)
    (change : LedgerEntry → LedgerEntry) : (l.update version change).IsSorted :=
  inOrder_updateEntries h

theorem updateEntries_of_fixed (h : InOrder entries) {e : LedgerEntry}
    (hmem : (version, e) ∈ entries) (hfixed : change e = e) :
    updateEntries version change entries = entries := by
  induction entries with
  | nil => cases hmem
  | cons p entries ih =>
      obtain ⟨v, e'⟩ := p
      obtain ⟨hfirst, hrest⟩ := List.pairwise_cons.1 h
      rcases List.mem_cons.1 hmem with heq | hmem
      · obtain ⟨rfl, rfl⟩ := Prod.mk.inj heq
        rw [updateEntries, if_neg (lt_irrefl _), if_pos rfl, hfixed]
      · have hlt : v < version := hfirst _ hmem
        rw [updateEntries, if_neg (not_lt.2 (le_of_lt hlt)), if_neg (ne_of_lt hlt), ih hrest hmem]

/-- A launch that is known is not recorded again. -/
theorem recordLaunch_of_isSome (h : l.IsSorted) (hknown : (l.firstLaunchMs version).isSome)
    (nowMs : Int) : l.recordLaunch version nowMs = l := by
  obtain ⟨ms, hms⟩ := Option.isSome_iff_exists.1 hknown
  rw [firstLaunchMs, entry] at hms
  cases hlookup : l.entries.lookup version with
  | none =>
      rw [hlookup] at hms
      cases hms
  | some e =>
      rw [hlookup] at hms
      have hms : e.firstLaunchMs = some ms := hms
      obtain ⟨before, after, hentries, -⟩ := List.lookup_eq_some_iff.1 hlookup
      have hmem : (version, e) ∈ l.entries := by simp [hentries]
      have hfixed : { e with firstLaunchMs := e.firstLaunchMs <|> some (epochMs nowMs) } = e := by
        rw [hms]
        exact congrArg (LedgerEntry.mk e.analysisCount) hms.symm
      rw [recordLaunch, update, updateEntries_of_fixed h hmem hfixed]

theorem entry_of_mem (h : l.IsSorted) {e : LedgerEntry} (hmem : (version, e) ∈ l.entries) :
    l.entry version = e := by
  have hupdate : (l.update version fun _ ↦ e).entry version =
      if version = version then e else l.entry version := entry_update h
  rw [if_pos rfl, update, updateEntries_of_fixed h hmem rfl] at hupdate
  exact hupdate

/-! ## Entries read one after the other -/

theorem isSorted_foldl (entries : List (String × LedgerEntry)) (h : l.IsSorted) :
    (entries.foldl (fun l (version, e) ↦ l.update version fun _ ↦ e) l).IsSorted := by
  induction entries generalizing l with
  | nil => exact h
  | cons p entries ih => exact ih (h.update p.1 fun _ ↦ p.2)

theorem isSorted_ofEntries (entries : List (String × LedgerEntry)) :
    (ofEntries entries).IsSorted :=
  isSorted_foldl entries isSorted_empty

theorem updateEntries_of_forall_lt (h : ∀ p ∈ entries, p.1 < version) :
    updateEntries version change entries = entries ++ [(version, change {})] := by
  induction entries with
  | nil => rfl
  | cons p entries ih =>
      obtain ⟨v, e⟩ := p
      have hlt : v < version := h _ List.mem_cons_self
      have hrest := ih fun q hq ↦ h q (List.mem_cons_of_mem _ hq)
      rw [updateEntries, if_neg (not_lt.2 (le_of_lt hlt)), if_neg (ne_of_lt hlt), hrest]
      rfl

/-- Entries in order are added at the end, one after the other. -/
theorem foldl_update_eq (l : Ledger) (h : InOrder (l.entries ++ entries)) :
    entries.foldl (fun l (version, e) ↦ l.update version fun _ ↦ e) l =
      ⟨l.entries ++ entries⟩ := by
  induction entries generalizing l with
  | nil =>
      rw [List.append_nil]
      rfl
  | cons p entries ih =>
      have hsplit : l.entries ++ p :: entries = (l.entries ++ [p]) ++ entries := by simp
      have hlast : l.update p.1 (fun _ ↦ p.2) = ⟨l.entries ++ [p]⟩ := by
        have hlt : ∀ q ∈ l.entries, q.1 < p.1 := by
          intro q hq
          exact (List.pairwise_append.1 h).2.2 q hq p List.mem_cons_self
        rw [Ledger.update, updateEntries_of_forall_lt hlt]
      rw [hsplit] at h ⊢
      exact (congrArg (entries.foldl _) hlast).trans (ih ⟨l.entries ++ [p]⟩ h)

theorem ofEntries_entries (h : l.IsSorted) : ofEntries l.entries = l := by
  rw [ofEntries, foldl_update_eq empty h]
  rfl

end HeapSentry.Storage.Ledger
