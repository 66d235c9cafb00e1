import HeapSentry.Json.Decode
import HeapSentry.Proofs.Json.Printing
import HeapSentry.Proofs.Results

/-!
# Decoding what was written

A decoder reads a written value if it makes of it what was written.  Records are read from members
that show their fields in order; a member that is left out must be one that the decoder can do
without.
-/

namespace HeapSentry.Json.Decode

/-- A decoder makes something of a well-formed value. -/
structure Reads {α : Type} (d : Decoder α) (v : Value) (a : α) : Prop where
  wellFormed : v.WellFormed
  decode_eq : d v.reading = .ok a

variable {α : Type} {d : Decoder α} {v : Value} {a : α}

/-! ## Plain values -/

theorem reads_string (s : String) : Reads string (.str s) s := ⟨trivial, rfl⟩

theorem reads_boolean (b : Bool) : Reads boolean (.bool b) b := ⟨trivial, rfl⟩

theorem integer_nat {low high : Int} {type : String} {k : Nat} (hfits : k ≤ Number.gatherLimit)
    (hhigh : (k : Int) ≤ high) : integer low high type (Value.nat k).reading = .ok (k : Int) := by
  have hk : (UInt64.ofNat k).toNat = k := UInt64.toNat_ofNat_of_lt' (Nat.lt_succ_of_le hfits)
  simp [Value.nat, Value.reading, integer, Number.magnitude_ofNat hfits, hk, hhigh]

theorem reads_nat {f : Int → α} {low high : Int} {type : String} {k : Nat}
    (hfits : k ≤ Number.gatherLimit) (hhigh : (k : Int) ≤ high) (hf : f k = a) :
    Reads (fun r ↦ (integer low high type r).map f) (.nat k) a where
  wellFormed := Number.wellFormed_ofNat k
  decode_eq := by rw [integer_nat hfits hhigh, Except.map, hf]

theorem reads_word (type : String) (n : UInt64) :
    Reads (fun r ↦ (integer 0 0xffffffffffffffff type r).map fun i ↦ UInt64.ofNat i.toNat)
      (.nat n.toNat) n := by
  have hfits : n.toNat ≤ Number.gatherLimit := Nat.le_of_lt_succ n.toNat_lt
  exact reads_nat hfits (Int.ofNat_le.2 hfits) (by simp)

theorem reads_uint64 (n : UInt64) : Reads uint64 (.nat n.toNat) n := reads_word "u64" n

theorem reads_count (n : UInt64) : Reads count (.nat n.toNat) n := reads_word "usize" n

theorem reads_uint32 (n : UInt32) : Reads uint32 (.nat n.toNat) n := by
  have hhigh : n.toNat ≤ 0xffffffff := Nat.le_of_lt_succ n.toNat_lt
  exact reads_nat (Nat.le_trans hhigh (by decide)) (Int.ofNat_le.2 hhigh) (by simp)

theorem reads_uint16 (n : UInt16) : Reads uint16 (.nat n.toNat) n := by
  have hhigh : n.toNat ≤ 0xffff := Nat.le_of_lt_succ n.toNat_lt
  exact reads_nat (Nat.le_trans hhigh (by decide)) (Int.ofNat_le.2 hhigh) (by simp)

theorem reads_int {f : Int → α} {low high i : Int} {type : String} (hlow : low ≤ i)
    (hhigh : i ≤ high) (hleast : -0x8000000000000000 ≤ low)
    (hgreatest : high ≤ 0x7fffffffffffffff) (hf : f i = a) :
    Reads (fun r ↦ (integer low high type r).map f) (.int i) a := by
  rcases Int.lt_or_le i 0 with hnegative | hnatural
  · have hi : (Int64.ofInt i).toInt = i := by
      apply Int64.toInt_ofInt_of_le
      all_goals omega
    refine ⟨Number.wellFormed_ofInt i, ?_⟩
    simp [Value.int, Value.reading, integer, Number.magnitude_ofInt hnegative (by omega), hi, hlow,
      hhigh, Except.map, hf]
  · obtain ⟨k, rfl⟩ := Int.eq_ofNat_of_zero_le hnatural
    rw [Value.int, Number.ofInt_natCast]
    apply reads_nat _ hhigh hf
    rw [Number.gatherLimit]
    omega

theorem reads_int8 (i : Int8) : Reads int8 (.int i.toInt) i :=
  reads_int i.le_toInt (Int.le_of_lt_add_one i.toInt_lt) (by decide) (by decide) (by simp)

theorem reads_int16 (i : Int16) : Reads int16 (.int i.toInt) i :=
  reads_int i.le_toInt (Int.le_of_lt_add_one i.toInt_lt) (by decide) (by decide) (by simp)

theorem reads_int32 (i : Int32) : Reads int32 (.int i.toInt) i :=
  reads_int i.le_toInt (Int.le_of_lt_add_one i.toInt_lt) (by decide) (by decide) (by simp)

theorem reads_int64 (i : Int64) : Reads int64 (.int i.toInt) i :=
  reads_int i.le_toInt (Int.le_of_lt_add_one i.toInt_lt) (by decide) (by decide) (by simp)

theorem Reads.map {β : Type} (h : Reads d v a) (f : α → β) :
    Reads (fun r ↦ (d r).map f) v (f a) := by
  refine ⟨h.wellFormed, ?_⟩
  rw [h.decode_eq]
  rfl

theorem reads_optional (h : Reads d v a) (hnull : v.reading ≠ .null) :
    Reads (optional d) v (some a) where
  wellFormed := h.wellFormed
  decode_eq := by
    unfold optional
    split
    next heq => exact absurd heq hnull
    next => rw [h.decode_eq, Except.map]

theorem reads_ofOption {f : α → Value} (o : Option α)
    (hf : ∀ a, Reads d (f a) a ∧ (f a).reading ≠ .null) :
    Reads (optional d) (.ofOption f o) o := by
  cases o with
  | none => exact ⟨trivial, rfl⟩
  | some a =>
      obtain ⟨hreads, hnull⟩ := hf a
      exact reads_optional hreads hnull

theorem reads_list {f : α → Value} {as : List α} (h : ∀ a ∈ as, Reads d (f a) a) :
    Reads (list d) (.list f as) as := by
  induction as with
  | nil => exact ⟨trivial, rfl⟩
  | cons a as ih =>
      have hfirst := h a List.mem_cons_self
      have hrest := ih fun b hb ↦ h b (List.mem_cons_of_mem a hb)
      refine ⟨⟨hfirst.wellFormed, hrest.wellFormed⟩, ?_⟩
      have hitems : items d true (Value.itemReadings (as.map f)) = .ok as := hrest.decode_eq
      change items d true ((f a).reading :: Value.itemReadings (as.map f)) = .ok (a :: as)
      rw [items, hfirst.decode_eq, hitems]
      rfl

theorem reads_dictionary {f : α → Value} {ps : List (String × α)}
    (h : ∀ p ∈ ps, Reads d (f p.2) p.2) :
    Reads (dictionary d) (.obj (ps.map fun p ↦ (p.1, f p.2))) ps := by
  induction ps with
  | nil => exact ⟨trivial, rfl⟩
  | cons p ps ih =>
      have hfirst := h p List.mem_cons_self
      have hrest := ih fun q hq ↦ h q (List.mem_cons_of_mem p hq)
      refine ⟨⟨hfirst.wellFormed, hrest.wellFormed⟩, ?_⟩
      have hmembers : members d true
          (Value.memberReadings (ps.map fun p ↦ (p.1, f p.2))) = .ok ps := hrest.decode_eq
      change members d true ((some p.1, (f p.2).reading) ::
        Value.memberReadings (ps.map fun p ↦ (p.1, f p.2))) = .ok (p :: ps)
      rw [members, hfirst.decode_eq, hmembers]
      rfl

/-! ## Variants -/

theorem reads_tagged {table : List (String × Decoder α)} {name : String}
    (hname : table.lookup name = some d) (h : Reads d v a) :
    Reads (tagged table) (.obj [(name, v)]) a := by
  refine ⟨⟨h.wellFormed, trivial⟩, ?_⟩
  simp [Value.reading, Value.memberReadings, tagged, variant, hname, h.decode_eq, onlyMember, bind,
    Except.bind]

theorem reads_named {table : List (String × α)} {name : String}
    (hname : table.lookup name = some a) : Reads (named table) (.str name) a := by
  refine ⟨trivial, ?_⟩
  simp [Value.reading, named, variant, hname]

/-! ## Records -/

/-- A member shows the value of a field, or leaves out what the field can do without. -/
structure Field.Shows (f : Field) (member : Option Value) (a : f.Ty) : Prop where
  reads : ∀ v ∈ member, Reads f.decode v a
  absent : member = none → f.absent = some a

/-- Members show the values of fields in order. -/
inductive ShowAll : (fs : List Field) → Values fs → List (String × Option Value) → Prop
  | nil : ShowAll [] () []
  | cons {f : Field} {fs : List Field} {a : f.Ty} {as : Values fs} {member : Option Value}
      {members : List (String × Option Value)} (hfirst : f.Shows member a)
      (hrest : ShowAll fs as members) : ShowAll (f :: fs) (a, as) ((f.name, member) :: members)

section

variable {name : String} {fs : List Field} {as : Values fs}
  {members : List (String × Option Value)}

theorem ShowAll.required (hfirst : Reads d v a) (hrest : ShowAll fs as members) :
    ShowAll (required name d :: fs) (a, as) ((name, some v) :: members) := by
  apply ShowAll.cons _ hrest
  refine ⟨?_, nofun⟩
  rintro _ ⟨⟩
  exact hfirst

theorem ShowAll.present {default : α} (hfirst : Reads d v a) (hrest : ShowAll fs as members) :
    ShowAll (Decode.defaulting name d default :: fs) (a, as) ((name, some v) :: members) := by
  apply ShowAll.cons _ hrest
  refine ⟨?_, nofun⟩
  rintro _ ⟨⟩
  exact hfirst

theorem ShowAll.unset {f : α → Value} {o : Option α} (ho : o = none)
    (hrest : ShowAll fs as members) :
    ShowAll (omissible name d :: fs) (o, as) ((name, o.map f) :: members) := by
  rw [ho]
  exact .cons ⟨nofun, fun _ ↦ rfl⟩ hrest

theorem ShowAll.omissible {f : α → Value} (o : Option α)
    (hf : ∀ a, Reads d (f a) a ∧ (f a).reading ≠ .null) (hrest : ShowAll fs as members) :
    ShowAll (omissible name d :: fs) (o, as) ((name, o.map f) :: members) := by
  cases o with
  | none => exact .unset rfl hrest
  | some a =>
      apply ShowAll.cons _ hrest
      obtain ⟨hreads, hnull⟩ := hf a
      refine ⟨?_, nofun⟩
      rintro _ ⟨⟩
      exact reads_optional hreads hnull

theorem ShowAll.defaulting {f : α → Value} (o : Option α)
    (hf : ∀ a, Reads d (f a) a ∧ (f a).reading ≠ .null) (hrest : ShowAll fs as members) :
    ShowAll (defaulting name (optional d) none :: fs) (o, as) ((name, o.map f) :: members) := by
  apply ShowAll.cons _ hrest
  cases o with
  | none => exact ⟨nofun, fun _ ↦ rfl⟩
  | some a =>
      obtain ⟨hreads, hnull⟩ := hf a
      refine ⟨?_, nofun⟩
      rintro _ ⟨⟩
      exact reads_optional hreads hnull

end

theorem ShowAll.names_eq {fs : List Field} {as : Values fs}
    {members : List (String × Option Value)} (h : ShowAll fs as members) :
    members.map Prod.fst = fs.map Field.name := by
  induction h with
  | nil => rfl
  | cons _ _ ih => rw [List.map_cons, List.map_cons, ih]

theorem fill_of_ne {f : Field} {fs : List Field} {slot : Option f.Ty} {name : String}
    (hname : name ≠ f.name) (slots : Slots fs) (r : Reading) :
    Slots.fill (f :: fs) (slot, slots) name r =
      (Slots.fill fs slots name r).map fun slots ↦ (slot, slots) := by
  cases slot
  all_goals
    rw [Slots.fill, if_neg hname]
    rfl

/-- A field that no further member names keeps what it has. -/
theorem fillAll_cons {f : Field} {fs : List Field} (slot : Option f.Ty) {a : f.Ty}
    (hslot : (slot <|> f.absent) = some a) {ms : List (Option String × Reading)}
    (hms : ∀ m ∈ ms, m.1 ≠ some f.name) (closed : Bool) (slots : Slots fs) :
    Slots.fillAll (f :: fs) closed (slot, slots) ms =
      (Slots.fillAll fs closed slots ms).map fun as ↦ (a, as) := by
  induction ms generalizing slots with
  | nil =>
      cases closed with
      | true =>
          change Slots.finish (f :: fs) (slot, slots) =
            (Slots.finish fs slots).map fun as ↦ (a, as)
          rw [Slots.finish, hslot]
          rfl
      | false => rfl
  | cons m ms ih =>
      obtain ⟨name, r⟩ := m
      cases name with
      | none => rfl
      | some name =>
          have hname : name ≠ f.name := fun heq ↦ hms _ List.mem_cons_self (congrArg some heq)
          change (Slots.fill (f :: fs) (slot, slots) name r >>= fun slots ↦
            Slots.fillAll (f :: fs) closed slots ms) = (Slots.fill fs slots name r >>= fun slots ↦
              Slots.fillAll fs closed slots ms).map fun as ↦ (a, as)
          rw [fill_of_ne hname]
          cases Slots.fill fs slots name r with
          | error e => rfl
          | ok slots => exact ih (fun m hm ↦ hms m (List.mem_cons_of_mem _ hm)) slots

def shown (members : List (String × Option Value)) : List (String × Value) :=
  members.filterMap fun (k, v) ↦ v.map (k, ·)

theorem memberReadings_eq (ms : List (String × Value)) :
    Value.memberReadings ms = ms.map fun m ↦ (some m.1, m.2.reading) := by
  induction ms with
  | nil => rfl
  | cons m ms ih => rw [Value.memberReadings, ih, List.map_cons]

theorem ne_of_mem_shown {members : List (String × Option Value)} {name : String}
    (hname : name ∉ members.map Prod.fst) :
    ∀ m ∈ Value.memberReadings (shown members), m.1 ≠ some name := by
  rw [memberReadings_eq]
  intro m hm heq
  obtain ⟨⟨k, v⟩, hkv, rfl⟩ := List.mem_map.1 hm
  obtain ⟨⟨k', o⟩, hmember, ho⟩ := List.mem_filterMap.1 hkv
  obtain ⟨v', -, hsame⟩ := Option.map_eq_some_iff.1 ho
  obtain rfl : k' = k := congrArg Prod.fst hsame
  obtain rfl : k' = name := Option.some.inj heq
  exact hname (List.mem_map_of_mem hmember)

theorem ShowAll.fillAll_eq {fs : List Field} {as : Values fs}
    {members : List (String × Option Value)} (h : ShowAll fs as members)
    (hnames : (fs.map Field.name).Nodup) :
    Slots.fillAll fs true (.empty fs) (Value.memberReadings (shown members)) = .ok as := by
  induction h with
  | nil => rfl
  | @cons f fs a as member members hfirst hrest ih =>
      obtain ⟨hname, hnames⟩ := List.nodup_cons.1 hnames
      rw [← hrest.names_eq] at hname
      have hothers := ne_of_mem_shown hname
      cases member with
      | none =>
          have hfill := fillAll_cons none (hfirst.absent rfl) hothers true (.empty fs)
          rw [ih hnames] at hfill
          exact hfill
      | some v =>
          have hfill := fillAll_cons (some a) rfl hothers true (.empty fs)
          rw [ih hnames] at hfill
          change (Slots.fill (f :: fs) (none, .empty fs) f.name v.reading >>= fun slots ↦
            Slots.fillAll (f :: fs) true slots (Value.memberReadings (shown members))) = .ok (a, as)
          rw [Slots.fill, if_pos rfl, (hfirst.reads v rfl).decode_eq]
          exact hfill

theorem ShowAll.wellFormed {fs : List Field} {as : Values fs}
    {members : List (String × Option Value)} (h : ShowAll fs as members) :
    Value.MembersWellFormed (shown members) := by
  induction h with
  | nil => trivial
  | @cons f fs a as member members hfirst hrest ih =>
      cases member with
      | none => exact ih
      | some v => exact ⟨(hfirst.reads v rfl).wellFormed, ih⟩

theorem reads_record {fs : List Field} {as : Values fs} {members : List (String × Option Value)}
    {name : String} {build : Values fs → α} (h : ShowAll fs as members)
    (hnames : (fs.map Field.name).Nodup) (hbuild : build as = a) :
    Reads (record name fs build) (.record members) a where
  wellFormed := h.wellFormed
  decode_eq := by
    change (Slots.fillAll fs true (.empty fs) (Value.memberReadings (shown members))).map build = _
    rw [h.fillAll_eq hnames, Except.map, hbuild]

/-! ## What can be decoded -/

theorem exists_build_of_record {name : String} {fs : List Field} {build : Values fs → α}
    {r : Reading} (h : record name fs build r = .ok a) : ∃ as, build as = a := by
  have hbuilt {x : Except DecodeError (Values fs)} (hx : x.map build = .ok a) :
      ∃ as, build as = a := by
    cases x with
    | error e => cases hx
    | ok as => exact ⟨as, Except.ok.inj hx⟩
  rw [record.eq_def] at h
  split at h
  next => exact hbuilt h
  next => exact hbuilt h
  next => cases h

theorem exists_of_mem_members {closed : Bool} {ms : List (Option String × Reading)}
    {ps : List (String × α)} (h : members d closed ms = .ok ps) :
    ∀ p ∈ ps, ∃ r, d r = .ok p.2 := by
  induction ms generalizing ps with
  | nil =>
      rw [members] at h
      split at h
      · obtain rfl := Except.ok.inj h
        exact List.forall_mem_nil _
      · cases h
  | cons m ms ih =>
      obtain ⟨_ | name, r⟩ := m
      · cases h
      · obtain ⟨first, hfirst, hrest⟩ := bind_eq_ok_iff.1 h
        obtain ⟨others, hothers, hps⟩ := bind_eq_ok_iff.1 hrest
        obtain rfl := Except.ok.inj hps
        intro p hp
        rcases List.mem_cons.1 hp with rfl | hp
        · exact ⟨r, hfirst⟩
        · exact ih hothers p hp

theorem exists_of_mem_dictionary {r : Reading} {ps : List (String × α)}
    (h : dictionary d r = .ok ps) : ∀ p ∈ ps, ∃ r, d r = .ok p.2 := by
  rw [dictionary.eq_def] at h
  split at h
  next => exact exists_of_mem_members h
  next => cases h

/-! ## Texts -/

theorem decode_eq_ok {text : String} (h : decode d text = .ok a) :
    d (Reading.ofText text).1 = .ok a := by
  rw [decode] at h
  generalize Reading.ofText text = read at h ⊢
  obtain ⟨r, ended⟩ := read
  obtain ⟨a', ha, hended⟩ := bind_eq_ok_iff.1 h
  cases ended with
  | false => cases hended
  | true =>
      obtain rfl := Except.ok.inj hended
      exact ha

/-- What a decoder makes of a value it makes of the value's text, whatever its layout. -/
theorem decode_chars {l : Layout} (hl : l.Spaced) (h : Reads d v a) (depth : Nat) :
    decode d (String.ofList (v.chars l depth)) = .ok a := by
  rw [decode, Reading.ofText_chars hl h.wellFormed]
  change (d v.reading >>= fun a ↦ if true then Except.ok a else Except.error .malformed) = .ok a
  rw [h.decode_eq]
  rfl

theorem decode_pretty (h : Reads d v a) : decode d v.pretty = .ok a :=
  decode_chars Layout.spaced_pretty h 0

end HeapSentry.Json.Decode
