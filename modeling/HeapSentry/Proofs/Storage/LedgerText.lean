import HeapSentry.Proofs.Json.Decoding
import HeapSentry.Proofs.Storage.Entries
import HeapSentry.Storage.LedgerFile

/-!
# The text of a ledger

A ledger is read back from its text, whatever its versions are called, as long as its numbers fit
the widths that they are kept in.  What is read from any text is such a ledger.
-/

namespace HeapSentry.Storage

open Json Decode

/-- Whether the numbers of an entry fit: 32 bits for the count, 64 for the time. -/
structure LedgerEntry.Fits (e : LedgerEntry) : Prop where
  count : e.analysisCount < 2 ^ 32
  launch : ∀ ms ∈ e.firstLaunchMs, ms < 2 ^ 64

theorem LedgerEntry.reads_toJson {e : LedgerEntry} (h : e.Fits) :
    Reads LedgerEntry.decoder e.toJson e := by
  obtain ⟨count, launch⟩ := e
  let n := UInt32.ofNat count
  let o := launch.map UInt64.ofNat
  have hn : n.toNat = count := UInt32.toNat_ofNat_of_lt' h.count
  have ho : o.map UInt64.toNat = launch := by
    cases launch with
    | none => rfl
    | some ms => exact congrArg some (UInt64.toNat_ofNat_of_lt' (h.launch ms rfl))
  have hlaunch : launch.map Value.nat = o.map fun ms ↦ .nat ms.toNat := by
    rw [← ho, Option.map_map]
    rfl
  have hreads : Reads LedgerEntry.decoder (.record [("analysis_count", some (.nat n.toNat)),
      ("first_launch_unix_ms", o.map fun ms ↦ .nat ms.toNat)]) ⟨n.toNat, o.map UInt64.toNat⟩ :=
    reads_record
      (.required (reads_uint32 n) <| .defaulting o (fun ms ↦ ⟨reads_uint64 ms, nofun⟩) .nil)
      (by decide) rfl
  rwa [hn, ho, ← hlaunch] at hreads

theorem LedgerEntry.fits_of_decoder {r : Reading} {e : LedgerEntry}
    (h : LedgerEntry.decoder r = .ok e) : e.Fits := by
  obtain ⟨⟨n, o, _⟩, rfl⟩ := exists_build_of_record h
  refine ⟨n.toNat_lt, fun ms hms ↦ ?_⟩
  obtain ⟨ms', -, rfl⟩ := Option.map_eq_some_iff.1 hms
  exact ms'.toNat_lt

namespace Ledger

variable {l : Ledger} {text : String}

/-- Whether all numbers fit. -/
def Fits (l : Ledger) : Prop := ∀ p ∈ l.entries, p.2.Fits

theorem fits_of_entries (hsorted : l.IsSorted) (h : ∀ version, (l.entry version).Fits) :
    l.Fits := by
  intro p hp
  rw [← entry_of_mem hsorted hp]
  exact h p.1

theorem Fits.entry (h : l.Fits) (version : String) : (l.entry version).Fits := by
  rw [Ledger.entry]
  cases hlookup : l.entries.lookup version with
  | none =>
      refine ⟨by decide, fun ms hms ↦ ?_⟩
      cases hms
  | some e =>
      obtain ⟨before, after, hentries, -⟩ := List.lookup_eq_some_iff.1 hlookup
      apply h (version, e)
      simp [hentries]

theorem ofText?_text (hsorted : l.IsSorted) (hfits : l.Fits) : ofText? l.text = some l := by
  have hreads : Reads (dictionary LedgerEntry.decoder) l.toJson l.entries :=
    reads_dictionary fun p hp ↦ LedgerEntry.reads_toJson (hfits p hp)
  rw [ofText?, text, decode_pretty hreads]
  exact congrArg some (ofEntries_entries hsorted)

theorem fits_foldl {entries : List (String × LedgerEntry)} (hentries : ∀ p ∈ entries, p.2.Fits)
    (h : l.Fits) : (entries.foldl (fun l (version, e) ↦ l.update version fun _ ↦ e) l).Fits := by
  induction entries generalizing l with
  | nil => exact h
  | cons p entries ih =>
      apply ih fun q hq ↦ hentries q (List.mem_cons_of_mem p hq)
      intro q hq
      rcases mem_updateEntries hq with ⟨-, e, he, -⟩ | hold
      · rw [he]
        exact hentries p List.mem_cons_self
      · exact h q hold

theorem isSorted_and_fits_of_ofText? (h : ofText? text = some l) : l.IsSorted ∧ l.Fits := by
  rw [ofText?] at h
  split at h
  next entries hentries =>
    obtain rfl := Option.some.inj h
    refine ⟨isSorted_ofEntries entries, fits_foldl (fun p hp ↦ ?_) (List.forall_mem_nil _)⟩
    obtain ⟨r, hr⟩ := exists_of_mem_dictionary (decode_eq_ok hentries) p hp
    exact LedgerEntry.fits_of_decoder hr
  next => cases h

end Ledger

end HeapSentry.Storage
