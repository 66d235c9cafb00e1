import HeapSentry.Json.Printer
import HeapSentry.Proofs.Json.Numerals
import HeapSentry.Proofs.Json.Quoting

/-!
# Reading back printed values

What stands between the tokens of a printed text is blank, so it is read back as it was printed,
whatever its layout.  Strings are text again, and lists and objects are closed where they were.
-/

namespace HeapSentry.Json

/-! ## Values as they are read back -/

namespace Value

mutual

def WellFormed : Value → Prop
  | .num n => n.WellFormed
  | .arr vs => ItemsWellFormed vs
  | .obj ms => MembersWellFormed ms
  | _ => True

def ItemsWellFormed : List Value → Prop
  | [] => True
  | v :: vs => v.WellFormed ∧ ItemsWellFormed vs

def MembersWellFormed : List (String × Value) → Prop
  | [] => True
  | (_, v) :: ms => v.WellFormed ∧ MembersWellFormed ms

end

mutual

def reading : Value → Reading
  | .null => .null
  | .bool b => .bool b
  | .num n => .num n
  | .str s => .str (some s)
  | .arr vs => .arr (itemReadings vs) true
  | .obj ms => .obj (memberReadings ms) true

def itemReadings : List Value → List Reading
  | [] => []
  | v :: vs => v.reading :: itemReadings vs

def memberReadings : List (String × Value) → List (Option String × Reading)
  | [] => []
  | (k, v) :: ms => (some k, v.reading) :: memberReadings ms

end

end Value

/-! ## Layouts -/

/-- Only blanks stand between the tokens, and a colon after each name. -/
structure Layout.Spaced (l : Layout) : Prop where
  newline : ∀ depth, ∀ c ∈ l.newline depth, Reading.isBlank c = true
  colon : ∃ blanks, l.colon = ':' :: blanks ∧ ∀ c ∈ blanks, Reading.isBlank c = true

theorem Layout.spaced_pretty : Layout.pretty.Spaced where
  newline depth c hc := by
    rcases List.mem_cons.1 hc with rfl | hspace
    · rfl
    · rw [List.eq_of_mem_replicate hspace]
      rfl
  colon := ⟨[' '], rfl, fun c hc ↦ by rw [List.mem_singleton.1 hc]; rfl⟩

theorem Layout.spaced_compact : Layout.compact.Spaced where
  newline _ := List.forall_mem_nil _
  colon := ⟨[], rfl, List.forall_mem_nil _⟩

namespace Reading

variable {l : Layout} {blanks cs rest : List Char} {c : Char}

theorem skipBlanks_append (hblanks : ∀ c ∈ blanks, isBlank c = true) (cs : List Char) :
    skipBlanks (blanks ++ cs) = skipBlanks cs := by
  rw [skipBlanks, List.dropWhile_append_of_pos hblanks]
  rfl

theorem skipBlanks_cons (hc : isBlank c = false) (cs : List Char) :
    skipBlanks (c :: cs) = c :: cs := by
  simp [skipBlanks, hc]

theorem skipBlanks_append_cons (hblanks : ∀ c ∈ blanks, isBlank c = true)
    (hc : isBlank c = false) (cs : List Char) : skipBlanks (blanks ++ c :: cs) = c :: cs := by
  rw [skipBlanks_append hblanks, skipBlanks_cons hc]

theorem endsNumber_append_cons (hblanks : ∀ c ∈ blanks, isBlank c = true)
    (hc : EndsNumber (c :: cs)) : EndsNumber (blanks ++ c :: cs) := by
  cases blanks with
  | nil => exact hc
  | cons b blanks =>
      have hb : isBlank b = true := hblanks b List.mem_cons_self
      simp only [isBlank, Bool.or_eq_true, decide_eq_true_eq] at hb
      apply endsNumber_cons
      rcases hb with ((rfl | rfl) | rfl) | rfl
      all_goals decide

/-! ## Scanning by form -/

variable {fuel : Nat} {r : Reading} {items : List Reading} {closed : Bool}
  {end? : Option (List Char)}

theorem scan_append (hblanks : ∀ c ∈ blanks, isBlank c = true) (cs : List Char) :
    scan fuel (blanks ++ cs) = scan fuel cs := by
  cases fuel with
  | zero => rw [scan, scan]
  | succ fuel => rw [scan, scan, skipBlanks_append hblanks]

theorem ne_of_opensNumber {d : Char} (hc : c = '-' ∨ isDigit c = true) (hd : d ≠ '-')
    (hdigit : isDigit d = false) : c ≠ d := by
  rintro rfl
  rcases hc with hc | hc
  · exact hd hc
  · rw [hdigit] at hc
    cases hc

theorem isBlank_of_opensNumber (hc : c = '-' ∨ isDigit c = true) : isBlank c = false := by
  simp only [isBlank, Bool.or_eq_false_iff, decide_eq_false_iff_not]
  refine ⟨⟨⟨?_, ?_⟩, ?_⟩, ?_⟩
  all_goals exact ne_of_opensNumber hc (by decide) (by decide)

theorem scan_number {n : Number} (hn : n.WellFormed) (hrest : EndsNumber rest) :
    scan (fuel + 1) (n.text ++ rest) = (.num n, some rest) := by
  have hnumber := Number.number?_text hn hrest
  obtain ⟨c, cs, htext, hc⟩ := Number.exists_text_eq_cons hn
  rw [htext, List.cons_append] at hnumber ⊢
  rw [scan, skipBlanks_cons (isBlank_of_opensNumber hc)]
  -- The first character is that of no other kind of value.
  split
  case h_7 => rw [hnumber]
  all_goals
    next heq => exact absurd (List.cons.inj heq).1 (ne_of_opensNumber hc (by decide) (by decide))

theorem encode_append (s : String) (rest : List Char) : Quoted.encode s.toList ++ rest =
    '"' :: (s.toList.flatMap Quoted.escape ++ '"' :: rest) := by
  simp [Quoted.encode]

theorem scan_string (s : String) :
    scan (fuel + 1) (Quoted.encode s.toList ++ rest) = (.str (some s), some rest) := by
  rw [encode_append, scan, skipBlanks_cons (by decide)]
  simp only [Quoted.decode?_escape, Option.map_some, String.ofList_toList]

theorem scanItems_last (hr : scan fuel cs = (r, some rest)) {more : List Char}
    (hrest : skipBlanks rest = ']' :: more) :
    scanItems (fuel + 1) cs = ([r], true, some more) := by
  rw [scanItems, hr]
  simp only [hrest]

theorem scanMembers_last {name : String} {value : List Char}
    (hname : Quoted.decode? cs = some (some name.toList, ':' :: value))
    (hr : scan fuel value = (r, some rest)) {more : List Char}
    (hrest : skipBlanks rest = '\x7d' :: more) :
    scanMembers (fuel + 1) cs = ([(some name, r)], true, some more) := by
  rw [scanMembers, hname]
  simp only [skipBlanks_cons (show isBlank ':' = false by decide), hr, hrest, Option.map_some,
    String.ofList_toList]

/-! ## Scanning what was printed -/

theorem exists_chars_eq_cons (l : Layout) (depth : Nat) {v : Value} (hv : v.WellFormed) :
    ∃ c cs, v.chars l depth = c :: cs ∧ isBlank c = false ∧ c ≠ ']' := by
  cases v with
  | null => exact ⟨_, _, by rw [Value.chars], by decide, by decide⟩
  | bool b => cases b <;> exact ⟨_, _, by rw [Value.chars], by decide, by decide⟩
  | num n =>
      rw [Value.WellFormed] at hv
      obtain ⟨c, cs, htext, hc⟩ := Number.exists_text_eq_cons hv
      rw [Value.chars]
      exact ⟨c, cs, htext, isBlank_of_opensNumber hc, ne_of_opensNumber hc (by decide) (by decide)⟩
  | str s => exact ⟨_, _, by rw [Value.chars, Quoted.encode], by decide, by decide⟩
  | arr vs => cases vs <;> exact ⟨_, _, by rw [Value.chars], by decide, by decide⟩
  | obj ms => rcases ms with _ | ⟨⟨k, v⟩, ms⟩ <;>
      exact ⟨_, _, by rw [Value.chars], by decide, by decide⟩

theorem exists_fuel {depth fuel : Nat} {v : Value} (hv : v.WellFormed)
    (hfuel : 2 * (v.chars l depth).length ≤ fuel) : ∃ less, fuel = less + 1 := by
  obtain ⟨c, cs, hchars, -⟩ := exists_chars_eq_cons l depth hv
  rw [hchars, List.length_cons] at hfuel
  exact Nat.exists_eq_add_of_le' (by omega)

theorem skipBlanks_newline_chars (hl : l.Spaced) (depth : Nat) {v : Value} (hv : v.WellFormed)
    (more : List Char) : ∃ c cs, v.chars l depth ++ more = c :: cs ∧ c ≠ ']' ∧
      skipBlanks (l.newline depth ++ (v.chars l depth ++ more)) = c :: cs := by
  obtain ⟨c, cs, hchars, hblank, hc⟩ := exists_chars_eq_cons l depth hv
  rw [hchars, List.cons_append]
  exact ⟨c, cs ++ more, rfl, hc, skipBlanks_append_cons (hl.newline depth) hblank _⟩

theorem scan_list (hl : l.Spaced) {depth : Nat} {v : Value} (hv : v.WellFormed) {more : List Char}
    (hitems : scanItems fuel (v.chars l depth ++ more) = (items, closed, end?)) :
    scan (fuel + 1) ('[' :: (l.newline depth ++ (v.chars l depth ++ more))) =
      (.arr items closed, end?) := by
  obtain ⟨c, cs, hcons, hc, hskip⟩ := skipBlanks_newline_chars hl depth hv more
  rw [hcons] at hitems
  rw [scan, skipBlanks_cons (by decide)]
  simp only [hskip]
  split
  next heq => exact absurd (List.cons.inj heq).1 hc
  next => rw [hitems]

theorem scanItems_more (hl : l.Spaced) {depth : Nat} {v : Value} (hv : v.WellFormed)
    {more : List Char}
    (hr : scan fuel cs = (r, some (',' :: (l.newline depth ++ (v.chars l depth ++ more)))))
    (hitems : scanItems fuel (v.chars l depth ++ more) = (items, closed, end?)) :
    scanItems (fuel + 1) cs = (r :: items, closed, end?) := by
  obtain ⟨c, cs, hcons, hc, hskip⟩ := skipBlanks_newline_chars hl depth hv more
  rw [hcons] at hitems
  rw [scanItems, hr]
  simp only [skipBlanks_cons (show isBlank ',' = false by decide), hskip]
  split
  next heq => exact absurd (List.cons.inj heq).1 hc
  next => rw [hitems]

theorem skipBlanks_newline_encode (hl : l.Spaced) (depth : Nat) (s : String) (more : List Char) :
    skipBlanks (l.newline depth ++ (Quoted.encode s.toList ++ more)) =
      '"' :: (s.toList.flatMap Quoted.escape ++ '"' :: more) := by
  rw [encode_append]
  exact skipBlanks_append_cons (hl.newline depth) (by decide) _

variable {members : List (Option String × Reading)} {depth : Nat} {k : String} {more : List Char}

theorem scan_object (hl : l.Spaced) (depth : Nat)
    (hmembers : scanMembers fuel (k.toList.flatMap Quoted.escape ++ '"' :: more) =
      (members, closed, end?)) :
    scan (fuel + 1) ('\x7b' :: (l.newline depth ++ (Quoted.encode k.toList ++ more))) =
      (.obj members closed, end?) := by
  rw [scan, skipBlanks_cons (by decide)]
  simp only [skipBlanks_newline_encode hl, hmembers]

theorem scanMembers_more (hl : l.Spaced) {name : String} {value : List Char}
    (hname : Quoted.decode? cs = some (some name.toList, ':' :: value))
    (hr : scan fuel value =
      (r, some (',' :: (l.newline depth ++ (Quoted.encode k.toList ++ more)))))
    (hmembers : scanMembers fuel (k.toList.flatMap Quoted.escape ++ '"' :: more) =
      (members, closed, end?)) :
    scanMembers (fuel + 1) cs = ((some name, r) :: members, closed, end?) := by
  rw [scanMembers, hname]
  simp only [skipBlanks_cons (show isBlank ':' = false by decide), hr,
    skipBlanks_cons (show isBlank ',' = false by decide), skipBlanks_newline_encode hl, hmembers,
    Option.map_some, String.ofList_toList]

/-- The name of a member is read up to the colon, and blanks before its value are skipped. -/
theorem exists_value_of_colon (hl : l.Spaced) (s : String) (more : List Char) :
    ∃ value, Quoted.decode? (s.toList.flatMap Quoted.escape ++ '"' :: (l.colon ++ more)) =
        some (some s.toList, ':' :: value) ∧ ∀ fuel, scan fuel value = scan fuel more := by
  obtain ⟨blanks, hcolon, hblanks⟩ := hl.colon
  rw [Quoted.decode?_escape, hcolon]
  exact ⟨blanks ++ more, rfl, fun fuel ↦ scan_append hblanks more⟩

theorem endsNumber_itemChars (hl : l.Spaced) (depth : Nat) (vs : List Value) (rest : List Char) :
    EndsNumber (Value.itemChars l depth vs ++ rest) := by
  cases vs with
  | nil =>
      rw [Value.itemChars, List.append_assoc]
      exact endsNumber_append_cons (hl.newline depth) (endsNumber_cons (by decide))
  | cons v vs =>
      rw [Value.itemChars]
      exact endsNumber_cons (by decide)

theorem endsNumber_memberChars (hl : l.Spaced) (depth : Nat) (ms : List (String × Value))
    (rest : List Char) :
    EndsNumber (Value.memberChars l depth ms ++ rest) := by
  rcases ms with _ | ⟨⟨k, v⟩, ms⟩
  · rw [Value.memberChars, List.append_assoc]
    exact endsNumber_append_cons (hl.newline depth) (endsNumber_cons (by decide))
  · rw [Value.memberChars]
    exact endsNumber_cons (by decide)

theorem skipBlanks_itemChars_nil (hl : l.Spaced) (depth : Nat) :
    skipBlanks (Value.itemChars l depth [] ++ rest) = ']' :: rest := by
  rw [Value.itemChars, List.append_assoc]
  exact skipBlanks_append_cons (hl.newline depth) (by decide) rest

theorem skipBlanks_memberChars_nil (hl : l.Spaced) (depth : Nat) :
    skipBlanks (Value.memberChars l depth [] ++ rest) = '\x7d' :: rest := by
  rw [Value.memberChars, List.append_assoc]
  exact skipBlanks_append_cons (hl.newline depth) (by decide) rest

-- Each token takes one step, and the first item or member after a bracket takes another one; so
-- twice as many steps as there are characters are enough.
mutual

theorem scan_chars (hl : l.Spaced) : ∀ (v : Value), v.WellFormed → ∀ (depth : Nat) {fuel rest},
    2 * (v.chars l depth).length ≤ fuel → EndsNumber rest →
      scan fuel (v.chars l depth ++ rest) = (v.reading, some rest)
  | .null, hv, depth, fuel, rest, hfuel, _ => by
      obtain ⟨fuel, rfl⟩ := exists_fuel hv hfuel
      rw [Value.chars]
      rfl
  | .bool b, hv, depth, fuel, rest, hfuel, _ => by
      obtain ⟨fuel, rfl⟩ := exists_fuel hv hfuel
      cases b <;> rw [Value.chars] <;> rfl
  | .num n, hv, depth, fuel, rest, hfuel, hrest => by
      obtain ⟨fuel, rfl⟩ := exists_fuel hv hfuel
      rw [Value.chars]
      exact scan_number hv hrest
  | .str s, hv, depth, fuel, rest, hfuel, _ => by
      obtain ⟨fuel, rfl⟩ := exists_fuel hv hfuel
      rw [Value.chars]
      exact scan_string s
  | .arr [], hv, depth, fuel, rest, hfuel, _ => by
      obtain ⟨fuel, rfl⟩ := exists_fuel hv hfuel
      rw [Value.chars]
      rfl
  | .arr (v :: vs), hv, depth, fuel, rest, hfuel, _ => by
      obtain ⟨hv, hvs⟩ := hv
      rw [Value.chars] at hfuel ⊢
      simp only [List.length_cons, List.length_append] at hfuel
      obtain ⟨fuel, rfl⟩ := Nat.exists_eq_add_of_le' (show 2 ≤ fuel by omega)
      have hitem := scan_chars hl v hv (depth + 1) (show _ ≤ fuel by omega)
        (endsNumber_itemChars hl depth vs rest)
      have hitems := scanItems_itemChars hl vs hvs (by omega) hitem
      have hlist := scan_list hl hv hitems
      simpa [Value.reading, Value.itemReadings] using hlist
  | .obj [], hv, depth, fuel, rest, hfuel, _ => by
      obtain ⟨fuel, rfl⟩ := exists_fuel hv hfuel
      rw [Value.chars]
      rfl
  | .obj ((k, v) :: ms), hv, depth, fuel, rest, hfuel, _ => by
      obtain ⟨hv, hms⟩ := hv
      rw [Value.chars] at hfuel ⊢
      simp only [List.length_cons, List.length_append] at hfuel
      obtain ⟨fuel, rfl⟩ := Nat.exists_eq_add_of_le' (show 2 ≤ fuel by omega)
      have hmember := scan_chars hl v hv (depth + 1) (show _ ≤ fuel by omega)
        (endsNumber_memberChars hl depth ms rest)
      obtain ⟨value, hname, hvalue⟩ := exists_value_of_colon hl k
        (v.chars l (depth + 1) ++ (Value.memberChars l depth ms ++ rest))
      rw [← hvalue] at hmember
      have hmembers := scanMembers_memberChars hl ms hms (by omega) hname hmember
      have hobject := scan_object hl (depth + 1) hmembers
      simpa [Value.reading, Value.memberReadings] using hobject

theorem scanItems_itemChars (hl : l.Spaced) : ∀ (vs : List Value), Value.ItemsWellFormed vs →
    ∀ {depth fuel cs r rest}, 2 * (Value.itemChars l depth vs).length ≤ fuel →
      scan fuel cs = (r, some (Value.itemChars l depth vs ++ rest)) →
        scanItems (fuel + 1) cs = (r :: Value.itemReadings vs, true, some rest)
  | [], _, depth, fuel, cs, r, rest, _, hr => scanItems_last hr (skipBlanks_itemChars_nil hl depth)
  | v :: vs, hvs, depth, fuel, cs, r, rest, hfuel, hr => by
      obtain ⟨hv, hvs⟩ := hvs
      rw [Value.itemChars] at hfuel hr
      simp only [List.length_cons, List.length_append] at hfuel
      simp only [List.cons_append, List.append_assoc] at hr
      obtain ⟨fuel, rfl⟩ := Nat.exists_eq_add_of_le' (show 1 ≤ fuel by omega)
      have hitem := scan_chars hl v hv (depth + 1) (show _ ≤ fuel by omega)
        (endsNumber_itemChars hl depth vs rest)
      have hitems := scanItems_itemChars hl vs hvs (by omega) hitem
      exact scanItems_more hl hv hr hitems

theorem scanMembers_memberChars (hl : l.Spaced) : ∀ (ms : List (String × Value)),
    Value.MembersWellFormed ms → ∀ {depth fuel cs name value r rest},
      2 * (Value.memberChars l depth ms).length ≤ fuel →
        Quoted.decode? cs = some (some (String.toList name), ':' :: value) →
          scan fuel value = (r, some (Value.memberChars l depth ms ++ rest)) →
            scanMembers (fuel + 1) cs =
              ((some name, r) :: Value.memberReadings ms, true, some rest)
  | [], _, depth, fuel, cs, name, value, r, rest, _, hname, hr =>
      scanMembers_last hname hr (skipBlanks_memberChars_nil hl depth)
  | (k, v) :: ms, hms, depth, fuel, cs, name, value, r, rest, hfuel, hname, hr => by
      obtain ⟨hv, hms⟩ := hms
      rw [Value.memberChars] at hfuel hr
      simp only [List.length_cons, List.length_append] at hfuel
      simp only [List.cons_append, List.append_assoc] at hr
      obtain ⟨fuel, rfl⟩ := Nat.exists_eq_add_of_le' (show 1 ≤ fuel by omega)
      have hmember := scan_chars hl v hv (depth + 1) (show _ ≤ fuel by omega)
        (endsNumber_memberChars hl depth ms rest)
      obtain ⟨value, hnext, hvalue⟩ := exists_value_of_colon hl k
        (v.chars l (depth + 1) ++ (Value.memberChars l depth ms ++ rest))
      rw [← hvalue] at hmember
      have hmembers := scanMembers_memberChars hl ms hms (by omega) hnext hmember
      exact scanMembers_more hl hname hr hmembers

end

/-- A printed value is read back, whatever the layout, and nothing follows it. -/
theorem ofText_chars (hl : l.Spaced) {v : Value} (hv : v.WellFormed) (depth : Nat) :
    ofText (String.ofList (v.chars l depth)) = (v.reading, true) := by
  have hends : EndsNumber [] := by rintro c ⟨⟩
  have hscan := scan_chars hl v hv depth (Nat.le_add_right _ 2) hends
  rw [List.append_nil] at hscan
  simp [ofText, hscan, skipBlanks]

end Reading

end HeapSentry.Json
