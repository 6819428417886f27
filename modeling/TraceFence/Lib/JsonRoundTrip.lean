import TraceFence.Lib.JsonText

/-!
# JSON texts are read back

What the writer writes the reader reads back. A text is taken apart from the left, so each result
is about a text that goes on: a character, a number, then a value by induction, where the fuel the
reader is given is at least the length of what it reads.

## Main definitions

* `JsonText.Floats.Lawful` — floats are written as numbers and read back
* `JsonText.Reads` — a value is read back, however the text goes on

## Main results

* `JsonText.loads_dumps` — what was written is read back, but for the order of keys
-/

namespace JsonText

variable {floats : Floats} {cs ds rest : List Char} {c : Char}

/-! ### Texts are read back -/

theorem hexValue_hexDigit : ∀ n < 16, hexValue (hexDigit n) = some n := by decide

/-- A short escape is read back. -/
theorem parseText_unescape {e : Char} (h : unescape e = some c) :
    parseText ('\\' :: e :: rest) = (parseText rest).map fun p => (c :: p.1, p.2) := by
  have hu : e ≠ 'u' := by
    rintro rfl
    cases h
  rw [parseText.eq_def]
  split
  · next heq => cases heq
  · next heq =>
    injection heq with _ heq
    injection heq with heq _
    exact absurd heq hu
  · next heq =>
    injection heq with _ heq
    injection heq with he hrest
    subst he hrest
    rw [h]
    cases parseText rest <;> rfl
  · next hne heq =>
    injection heq with hc hrest
    exact (hne _ _ hc.symm hrest.symm).elim
  · next heq => cases heq

/-- A control character in its long escape is read back. -/
theorem parseText_control (h : c.toNat < 32) :
    parseText ('\\' :: 'u' :: '0' :: '0' :: hexDigit (c.toNat / 16) :: hexDigit (c.toNat % 16) ::
      rest) = (parseText rest).map fun p => (c :: p.1, p.2) := by
  have hvalue : hexValues '0' '0' (hexDigit (c.toNat / 16)) (hexDigit (c.toNat % 16)) =
      some c.toNat := by
    rw [hexValues, hexValue_hexDigit _ (by omega), hexValue_hexDigit _ (by omega)]
    change some (4096 * 0 + 256 * 0 + 16 * (c.toNat / 16) + c.toNat % 16) = _
    congr 1
    omega
  rw [parseText, hvalue]
  change (if c.toNat < 0xd800 ∨ 0xe000 ≤ c.toNat then _ else _) = _
  rw [if_pos (.inl (by omega)), Char.ofNat_toNat]
  cases parseText rest <;> rfl

/-- A character that needs no escape is read as it stands. -/
theorem parseText_plain (hquote : c ≠ '"') (hslash : c ≠ '\\') (h : ¬ c.toNat < 32) :
    parseText (c :: rest) = (parseText rest).map fun p => (c :: p.1, p.2) := by
  rw [parseText.eq_def]
  split
  · next heq =>
    injection heq with hc
    exact absurd hc hquote
  · next heq =>
    injection heq with hc
    exact absurd hc hslash
  · next heq =>
    injection heq with hc
    exact absurd hc hslash
  · next heq =>
    injection heq with hc hrest
    subst hc hrest
    rw [if_neg h]
    cases parseText rest <;> rfl
  · next heq => cases heq

theorem parseText_escape (c : Char) (rest : List Char) :
    parseText (escape c ++ rest) = (parseText rest).map fun p => (c :: p.1, p.2) := by
  unfold escape
  split_ifs with hquote hslash hn hr ht hf hb hcontrol
  · exact parseText_unescape (by rw [hquote]; rfl)
  · exact parseText_unescape (by rw [hslash]; rfl)
  · exact parseText_unescape (hn ▸ rfl)
  · exact parseText_unescape (hr ▸ rfl)
  · exact parseText_unescape (ht ▸ rfl)
  · exact parseText_unescape (hf ▸ rfl)
  · exact parseText_unescape (hb ▸ rfl)
  · exact parseText_control hcontrol
  · exact parseText_plain hquote hslash hcontrol

/-- A text in quotes is read back. -/
theorem parseText_quote (text rest : List Char) :
    parseText (text.flatMap escape ++ '"' :: rest) = some (text, rest) := by
  induction text with
  | nil => rfl
  | cons c text ih =>
    rw [List.flatMap_cons, List.append_assoc, parseText_escape, ih]
    rfl

/-! ### Numbers are read back -/

/-- The parts of a number are such that together they make one. -/
structure NumberText.WellFormed (n : NumberText) : Prop where
  whole : n.whole = ['0'] ∨ n.whole ≠ [] ∧ n.whole.head? ≠ some '0' ∧ ∀ c ∈ n.whole, c.isDigit
  fraction : ∀ c ∈ n.fraction, c.isDigit
  exponent : n.exponent = [] ∨ ∃ e sign digits, n.exponent = e :: (sign ++ digits) ∧
    (e = 'e' ∨ e = 'E') ∧ (sign = [] ∨ sign = ['+'] ∨ sign = ['-']) ∧ digits ≠ [] ∧
    ∀ c ∈ digits, c.isDigit

/-- What comes after a number does not go on with it. -/
def Stops (rest : List Char) : Prop :=
  ∀ c, rest.head? = some c → c.isDigit = false ∧ c ≠ '.' ∧ c ≠ 'e' ∧ c ≠ 'E'

/-- The first character that is not a digit ends the digits. -/
theorem digits_append (hds : ∀ c ∈ ds, c.isDigit) (hrest : ∀ c, rest.head? = some c → c.isDigit = false) :
    digits (ds ++ rest) = (ds, rest) := by
  rw [digits, List.span_eq_takeWhile_dropWhile, List.takeWhile_append_of_pos hds,
    List.dropWhile_append_of_pos hds]
  cases rest with
  | nil => simp
  | cons c rest =>
    have hc := hrest c rfl
    rw [List.takeWhile_cons_of_neg (by simp [hc]), List.dropWhile_cons_of_neg (by simp [hc]),
      List.append_nil]

theorem scanWhole_append {n : NumberText} (hn : n.WellFormed)
    (hrest : ∀ c, rest.head? = some c → c.isDigit = false) :
    scanWhole (n.whole ++ rest) = some (n.whole, rest) := by
  rcases hn.whole with hzero | ⟨hne, hhead, hdigits⟩
  · rw [hzero]
    rfl
  · unfold scanWhole
    split
    · next heq =>
      cases hwhole : n.whole with
      | nil => exact absurd hwhole hne
      | cons c cs =>
        rw [hwhole, List.cons_append] at heq
        injection heq with hc
        rw [hwhole, hc] at hhead
        exact absurd rfl hhead
    · rw [digits_append hdigits hrest, if_neg hne]

theorem scanFraction_append {n : NumberText} (hn : n.WellFormed)
    (hrest : ∀ c, rest.head? = some c → c.isDigit = false ∧ c ≠ '.') :
    scanFraction ((if n.fraction = [] then [] else '.' :: n.fraction) ++ rest) =
      (n.fraction, rest) := by
  by_cases hempty : n.fraction = []
  · rw [if_pos hempty, hempty, List.nil_append]
    unfold scanFraction
    split
    · next heq => exact absurd rfl (hrest '.' rfl).2
    · rfl
  · rw [if_neg hempty, List.cons_append]
    change (if (digits (n.fraction ++ rest)).1 = [] then _ else digits (n.fraction ++ rest)) = _
    rw [digits_append hn.fraction fun c hc => (hrest c hc).1, if_neg hempty]

theorem scanExponent_append {n : NumberText} (hn : n.WellFormed)
    (hrest : Stops rest) : scanExponent (n.exponent ++ rest) = (n.exponent, rest) := by
  rcases hn.exponent with hempty | ⟨e, sign, ds, hexponent, he, hsign, hne, hdigits⟩
  · rw [hempty, List.nil_append]
    unfold scanExponent
    split
    · next e sign rest =>
      obtain ⟨-, -, hlower, hupper⟩ := hrest e rfl
      rw [if_pos ⟨hlower, hupper⟩]
    · rfl
  · have hscan : digits (ds ++ rest) = (ds, rest) :=
      digits_append hdigits fun c hc => (hrest c hc).1
    have hletter : ¬ (e ≠ 'e' ∧ e ≠ 'E') := by
      rintro ⟨hlower, hupper⟩
      exact he.elim hlower hupper
    rw [hexponent, List.cons_append, List.append_assoc]
    rcases hsign with rfl | rfl | rfl
    · cases hds : ds with
      | nil => exact absurd hds hne
      | cons d ds' =>
        have hd : ¬ (d = '+' ∨ d = '-') := by
          have := hdigits d (hds ▸ List.mem_cons_self ..)
          rintro (rfl | rfl) <;> exact absurd this (by decide)
        rw [hds] at hscan
        rw [List.nil_append, List.cons_append, scanExponent, if_neg hletter, if_neg hd,
          ← List.cons_append, hscan, if_neg (List.cons_ne_nil _ _)]
        rfl
    · rw [List.cons_append, List.nil_append, scanExponent, if_neg hletter, if_pos (.inl rfl), hscan,
        if_neg hne]
      rfl
    · rw [List.cons_append, List.nil_append, scanExponent, if_neg hletter, if_pos (.inr rfl), hscan,
        if_neg hne]
      rfl

/-- A number starts with a digit, after its sign. -/
theorem exists_unsigned {n : NumberText} (hn : n.WellFormed) :
    ∃ d cs, d.isDigit = true ∧ n.unsigned = d :: cs := by
  rcases hn.whole with hzero | ⟨hne, -, hdigits⟩
  · rw [NumberText.unsigned, hzero]
    exact ⟨'0', _, by decide, rfl⟩
  · cases hwhole : n.whole with
    | nil => exact absurd hwhole hne
    | cons d cs =>
      rw [NumberText.unsigned, hwhole]
      exact ⟨d, _, hdigits d (hwhole ▸ List.mem_cons_self ..), rfl⟩

/-- What comes after the digits before the point, and after those behind it. -/
theorem head_exponent {n : NumberText} (hn : n.WellFormed) (hrest : Stops rest) :
    ∀ c, (n.exponent ++ rest).head? = some c → c.isDigit = false ∧ c ≠ '.' := by
  intro c hc
  rcases hn.exponent with hempty | ⟨e, sign, ds, hexponent, he, -⟩
  · rw [hempty] at hc
    exact ⟨(hrest c hc).1, (hrest c hc).2.1⟩
  · rw [hexponent] at hc
    obtain rfl : e = c := Option.some.inj hc
    rcases he with rfl | rfl <;> exact ⟨by decide, by decide⟩

theorem head_fraction {n : NumberText} (hn : n.WellFormed) (hrest : Stops rest) :
    ∀ c, ((if n.fraction = [] then [] else '.' :: n.fraction) ++ (n.exponent ++ rest)).head? =
      some c → c.isDigit = false := by
  intro c hc
  by_cases hempty : n.fraction = []
  · rw [if_pos hempty] at hc
    exact (head_exponent hn hrest c hc).1
  · rw [if_neg hempty] at hc
    obtain rfl : '.' = c := Option.some.inj hc
    decide

theorem scanUnsigned_append {n : NumberText} (hn : n.WellFormed) (hrest : Stops rest) :
    scanUnsigned n.negative (n.unsigned ++ rest) = some (n, rest) := by
  rw [scanUnsigned, NumberText.unsigned, List.append_assoc, List.append_assoc,
    scanWhole_append hn (head_fraction hn hrest), Option.map_some]
  dsimp only
  rw [scanFraction_append hn (head_exponent hn hrest), scanExponent_append hn hrest]

/-- **A number is read back**, however the text goes on. -/
theorem scanNumber_chars {n : NumberText} (hn : n.WellFormed) (hrest : Stops rest) :
    scanNumber (n.chars ++ rest) = some (n, rest) := by
  have hscan := scanUnsigned_append hn hrest
  obtain ⟨d, cs, hd, hchars⟩ := exists_unsigned hn
  by_cases hnegative : n.negative = true
  · rw [NumberText.chars, if_pos hnegative, List.cons_append, scanNumber, ← hnegative, hscan]
  · rw [NumberText.chars, if_neg hnegative, scanNumber.eq_def]
    split
    · next heq =>
      rw [hchars] at heq
      obtain rfl : d = '-' := (List.cons.inj heq).1
      cases hd
    · rw [← Bool.eq_false_iff.mpr hnegative, hscan]

theorem digitChar_ne_zero : ∀ n < 10, n ≠ 0 → Nat.digitChar n ≠ '0' := by decide

theorem head_toDigits {n : ℕ} (h : n ≠ 0) : (Nat.toDigits 10 n).head? ≠ some '0' := by
  induction n using Nat.strongRecOn with
  | ind n ih =>
    rw [Nat.toDigits_eq_if (by omega)]
    split
    · next hlt =>
      intro heq
      exact digitChar_ne_zero n hlt h (Option.some.inj heq)
    · have hhead := ih (n / 10) (by omega) (by omega)
      cases hdigits : Nat.toDigits 10 (n / 10) with
      | nil => exact absurd hdigits Nat.toDigits_ne_nil
      | cons c cs =>
        rw [hdigits] at hhead
        exact hhead

/-- The digits of a number make one. -/
theorem wellFormed_toDigits (negative : Bool) (n : ℕ) :
    NumberText.WellFormed { negative := negative, whole := Nat.toDigits 10 n } := by
  refine ⟨?_, by simp, .inl rfl⟩
  by_cases hzero : n = 0
  · rw [hzero]
    exact .inl (Nat.toDigits_zero 10)
  · exact .inr ⟨Nat.toDigits_ne_nil, head_toDigits hzero, fun c hc =>
      Nat.isDigit_of_mem_toDigits (by omega) (by omega) hc⟩

/-- The number of an integer. -/
def intText (n : ℤ) : NumberText where
  negative := decide (n < 0)
  whole := Nat.toDigits 10 n.natAbs

theorem renderInt_eq (n : ℤ) : renderInt n = (intText n).chars := by
  have hunsigned : (intText n).unsigned = Nat.toDigits 10 n.natAbs := by
    simp [NumberText.unsigned, intText]
  by_cases h : n < 0
  · have hnegative : (intText n).negative = true := decide_eq_true h
    rw [renderInt, if_pos h, NumberText.chars, if_pos hnegative, hunsigned, List.singleton_append]
  · have hnegative : ¬ (intText n).negative = true := by simpa [intText] using h
    rw [renderInt, if_neg h, NumberText.chars, if_neg hnegative, hunsigned, List.nil_append]

theorem value_intText {n : ℤ} (h : (Nat.toDigits 10 n.natAbs).length ≤ maxDigits) :
    (intText n).value floats = some (.int n) := by
  have hlength : (intText n).whole.length ≤ maxDigits := h
  have hmagnitude : Nat.ofDigitChars 10 (intText n).whole 0 = n.natAbs :=
    Nat.ofDigitChars_ten_toDigits
  rw [NumberText.value, if_pos ⟨rfl, rfl⟩, if_pos hlength, hmagnitude]
  dsimp only
  by_cases hn : n < 0
  · have hnegative : (intText n).negative = true := decide_eq_true hn
    rw [if_pos hnegative]
    congr 2
    omega
  · have hnegative : ¬ (intText n).negative = true := by simpa [intText] using hn
    rw [if_neg hnegative]
    congr 2
    omega

/-- **What a language promises of its floats**: a finite float is written as a number with a
fraction or an exponent, and read back. -/
structure Floats.Lawful (floats : Floats) : Prop where
  literal : ∀ x : Binary64, x.IsFinite → ∃ n : NumberText, n.WellFormed ∧
    (n.fraction ≠ [] ∨ n.exponent ≠ []) ∧ floats.repr x = n.chars
  parse_repr : ∀ x : Binary64, x.IsFinite → floats.parse (floats.repr x) = x

/-- A text that starts as a number starts as nothing else. -/
theorem chars_ne {n : NumberText} (hn : n.WellFormed) {e : Char} {es : List Char}
    (hdigit : c.isDigit = false)
    (hsign : c = '-' → es.head? = some e ∧ e.isDigit = false) : n.chars ++ rest ≠ c :: es := by
  obtain ⟨d, cs, hd, hunsigned⟩ := exists_unsigned hn
  intro heq
  by_cases hnegative : n.negative = true
  · rw [NumberText.chars, if_pos hnegative, hunsigned, List.cons_append] at heq
    injection heq with hc hes
    obtain ⟨hhead, he⟩ := hsign hc.symm
    rw [← hes] at hhead
    obtain rfl : d = e := Option.some.inj hhead
    rw [hd] at he
    cases he
  · rw [NumberText.chars, if_neg hnegative, hunsigned, List.cons_append] at heq
    injection heq with hc
    rw [← hc, hd] at hdigit
    cases hdigit

theorem parseValue_number {n : NumberText} (hn : n.WellFormed) (hrest : Stops rest) (fuel : ℕ) :
    parseValue floats (fuel + 1) (n.chars ++ rest) =
      (n.value floats).map fun value => (value, rest) := by
  have hletter {c : Char} {es : List Char} (hdigit : c.isDigit = false) (hsign : c ≠ '-') :
      n.chars ++ rest ≠ c :: es :=
    @chars_ne rest c n hn 'I' es hdigit fun h => absurd h hsign
  rw [parseValue.eq_def]
  dsimp only
  split
  case h_10 =>
    rw [scanNumber_chars hn hrest, Option.bind_eq_bind, Option.bind_some]
    cases n.value floats <;> rfl
  case h_9 _ heq => exact absurd heq (@chars_ne rest _ n hn 'I' _ (by decide) fun _ => ⟨rfl, by decide⟩)
  all_goals next heq => exact absurd heq (hletter (by decide) (by decide))

/-! ### Values are read back -/

theorem fitsItems_eq (items : List JsonValue) : fitsItems items = items.all fits := by
  induction items with
  | nil => rfl
  | cons v items ih => rw [fitsItems, ih, List.all_cons]

theorem fitsEntries_eq (entries : List (String × JsonValue)) :
    fitsEntries entries = entries.all fun e => fits e.2 := by
  induction entries with
  | nil => rfl
  | cons e entries ih =>
    obtain ⟨key, v⟩ := e
    rw [fitsEntries, fitsEntry, ih, List.all_cons]

/-- A text that no value starts with: a space, or the end of a list or an object. -/
def Closes (c : Char) : Prop := c = ' ' ∨ c = '\t' ∨ c = '\n' ∨ c = '\r' ∨ c = ']' ∨ c = '}'

instance : DecidablePred Closes := fun _ => inferInstanceAs (Decidable (_ ∨ _))

theorem exists_render (hfloats : floats.Lawful) {v : JsonValue} (hv : v.Proper) :
    ∃ c cs, render floats v = c :: cs ∧ ¬ Closes c := by
  have hnumber {n : NumberText} (hn : n.WellFormed) : ∃ c cs, n.chars = c :: cs ∧ ¬ Closes c := by
    obtain ⟨d, cs, hd, hunsigned⟩ := exists_unsigned hn
    by_cases hnegative : n.negative = true
    · exact ⟨'-', _, by rw [NumberText.chars, if_pos hnegative], by decide⟩
    · refine ⟨d, cs, by rw [NumberText.chars, if_neg hnegative, hunsigned], ?_⟩
      rintro (rfl | rfl | rfl | rfl | rfl | rfl) <;> exact absurd hd (by decide)
  cases hv with
  | null => exact ⟨_, _, rfl, by decide⟩
  | bool b => cases b <;> exact ⟨_, _, rfl, by decide⟩
  | int n =>
    rw [render, renderInt_eq]
    exact hnumber (wellFormed_toDigits _ _)
  | float x hx =>
    have hfinite : x.IsFinite := hx
    obtain ⟨n, hn, -, hrepr⟩ := hfloats.literal x hfinite
    rw [render, renderFloat, if_pos hfinite, hrepr]
    exact hnumber hn
  | str s => exact ⟨_, _, rfl, by decide⟩
  | list => exact ⟨_, _, rfl, by decide⟩
  | dict => exact ⟨_, _, rfl, by decide⟩

/-- Objects with every key once are made from their entries. -/
theorem ofPairs_eq {pairs : List (String × JsonValue)} (h : (pairs.map Prod.fst).Nodup) :
    ofPairs pairs = pairs := by
  have hloop (entries : List (String × JsonValue)) (hnodup : ((entries ++ pairs).map Prod.fst).Nodup) :
      pairs.foldl (fun entries pair =>
        if pair.1 ∈ entries.map Prod.fst then
          entries.map fun entry => if entry.1 = pair.1 then pair else entry
        else entries ++ [pair]) entries = entries ++ pairs := by
    clear h
    induction pairs generalizing entries with
    | nil => simp
    | cons pair pairs ih =>
      have hnew : pair.1 ∉ entries.map Prod.fst := by
        rw [List.map_append, List.nodup_append] at hnodup
        intro hmem
        exact hnodup.2.2 _ hmem _ (List.mem_cons_self ..) rfl
      rw [List.foldl_cons, if_neg hnew, ih _ (by simpa using hnodup), List.append_assoc,
        List.singleton_append]
  exact hloop [] h

theorem stops_cons (h : c.isDigit = false ∧ c ≠ '.' ∧ c ≠ 'e' ∧ c ≠ 'E') : Stops (c :: rest) := by
  intro d hd
  obtain rfl : c = d := Option.some.inj hd
  exact h

theorem skip_cons (h : ¬ Closes c) : skip (c :: cs) = c :: cs := by
  rw [skip, if_neg]
  rintro (rfl | rfl | rfl | rfl) <;> exact absurd h (by decide)

/-- A value is read back, however the text goes on. -/
def Reads (floats : Floats) (v : JsonValue) : Prop :=
  ∀ fuel rest, (render floats v).length ≤ fuel → Stops rest →
    parseValue floats fuel (render floats v ++ rest) = some (v, rest)

theorem renderItems_cons (v w : JsonValue) (items : List JsonValue) :
    renderItems floats (v :: w :: items) = render floats v ++ ',' :: renderItems floats (w :: items) :=
  rfl

theorem exists_renderItems (hfloats : floats.Lawful) {v : JsonValue} (hv : v.Proper)
    (items : List JsonValue) (rest : List Char) :
    ∃ c cs, renderItems floats (v :: items) ++ rest = c :: cs ∧ ¬ Closes c := by
  obtain ⟨c, cs, hrender, hc⟩ := exists_render hfloats hv
  cases items with
  | nil => exact ⟨c, _, by rw [renderItems, hrender, List.cons_append], hc⟩
  | cons w items =>
    exact ⟨c, _, by rw [renderItems_cons, hrender, List.cons_append, List.cons_append], hc⟩

theorem parseItems_render (hfloats : floats.Lawful) {items : List JsonValue}
    (hproper : ∀ v ∈ items, v.Proper) (hreads : ∀ v ∈ items, Reads floats v) (hne : items ≠ [])
    (rest : List Char) (fuel : ℕ) (hfuel : (renderItems floats items).length + 1 ≤ fuel) :
    parseItems floats fuel (renderItems floats items ++ ']' :: rest) = some (items, rest) := by
  induction items generalizing fuel with
  | nil => exact absurd rfl hne
  | cons v items ih =>
    obtain ⟨fuel, rfl⟩ : ∃ n, fuel = n + 1 := ⟨fuel - 1, by omega⟩
    have hv := hreads v (List.mem_cons_self ..)
    cases items with
    | nil =>
      rw [renderItems] at hfuel ⊢
      rw [parseItems, hv fuel _ (by omega) (stops_cons (by decide))]
      rfl
    | cons w items =>
      have htail := ih (fun v hv => hproper v (List.mem_cons_of_mem _ hv))
        (fun v hv => hreads v (List.mem_cons_of_mem _ hv)) (List.cons_ne_nil _ _) fuel
      have hw : w.Proper := hproper w (List.mem_cons_of_mem _ (List.mem_cons_self ..))
      rw [renderItems_cons, List.length_append, List.length_cons] at hfuel
      rw [renderItems_cons, List.append_assoc, List.cons_append, parseItems,
        hv fuel _ (by omega) (stops_cons (by decide))]
      change ((parseItems floats fuel (skip (renderItems floats (w :: items) ++ ']' :: rest))).bind
        fun p => some (v :: p.1, p.2)) = _
      obtain ⟨c, cs, hhead, hc⟩ := exists_renderItems hfloats hw items (']' :: rest)
      rw [hhead, skip_cons hc, ← hhead, htail (by omega)]
      rfl

theorem renderEntries_cons (key : String) (v : JsonValue) (e : String × JsonValue)
    (entries : List (String × JsonValue)) : renderEntries floats ((key, v) :: e :: entries) =
      '"' :: (key.toList.flatMap escape ++ '"' :: ':' :: (render floats v ++
        ',' :: renderEntries floats (e :: entries))) := by
  simp [renderEntries, renderEntry, quote]

theorem renderEntries_singleton (key : String) (v : JsonValue) :
    renderEntries floats [(key, v)] =
      '"' :: (key.toList.flatMap escape ++ '"' :: ':' :: render floats v) := by
  simp [renderEntries, renderEntry, quote]

theorem exists_renderEntries (e : String × JsonValue) (entries : List (String × JsonValue))
    (rest : List Char) : ∃ cs, renderEntries floats (e :: entries) ++ rest = '"' :: cs := by
  obtain ⟨key, v⟩ := e
  cases entries with
  | nil => exact ⟨_, by rw [renderEntries_singleton, List.cons_append]⟩
  | cons e entries => exact ⟨_, by rw [renderEntries_cons, List.cons_append]⟩

theorem skip_render (hfloats : floats.Lawful) {v : JsonValue} (hv : v.Proper) (rest : List Char) :
    skip (render floats v ++ rest) = render floats v ++ rest := by
  obtain ⟨c, cs, hrender, hc⟩ := exists_render hfloats hv
  rw [hrender, List.cons_append, skip_cons hc]

theorem parseEntries_render (hfloats : floats.Lawful) {entries : List (String × JsonValue)}
    (hproper : ∀ e ∈ entries, e.2.Proper) (hreads : ∀ e ∈ entries, Reads floats e.2)
    (hne : entries ≠ []) (rest : List Char) (fuel : ℕ)
    (hfuel : (renderEntries floats entries).length + 1 ≤ fuel) :
    parseEntries floats fuel (renderEntries floats entries ++ '}' :: rest) = some (entries, rest) := by
  induction entries generalizing fuel with
  | nil => exact absurd rfl hne
  | cons e entries ih =>
    obtain ⟨fuel, rfl⟩ : ∃ n, fuel = n + 1 := ⟨fuel - 1, by omega⟩
    obtain ⟨key, v⟩ := e
    have hv : Reads floats v := hreads (key, v) (List.mem_cons_self ..)
    have hproperv : v.Proper := hproper (key, v) (List.mem_cons_self ..)
    cases entries with
    | nil =>
      rw [renderEntries_singleton] at hfuel ⊢
      simp only [List.length_cons, List.length_append] at hfuel
      rw [List.cons_append, List.append_assoc, List.cons_append, List.cons_append, parseEntries,
        parseText_quote]
      change ((parseValue floats fuel (skip (render floats v ++ '}' :: rest))).bind _) = _
      rw [skip_render hfloats hproperv, hv fuel _ (by omega) (stops_cons (by decide))]
      change some ([(String.ofList key.toList, v)], rest) = _
      rw [String.ofList_toList]
    | cons e entries =>
      have htail := ih (fun e he => hproper e (List.mem_cons_of_mem _ he))
        (fun e he => hreads e (List.mem_cons_of_mem _ he)) (List.cons_ne_nil _ _) fuel
      rw [renderEntries_cons] at hfuel ⊢
      simp only [List.length_cons, List.length_append] at hfuel
      rw [List.cons_append, List.append_assoc, List.cons_append, List.cons_append,
        List.append_assoc, List.cons_append, parseEntries, parseText_quote]
      change ((parseValue floats fuel (skip (render floats v ++
        ',' :: (renderEntries floats (e :: entries) ++ '}' :: rest)))).bind _) = _
      rw [skip_render hfloats hproperv, hv fuel _ (by omega) (stops_cons (by decide))]
      change ((parseEntries floats fuel (skip (renderEntries floats (e :: entries) ++
        '}' :: rest))).bind fun p => some ((String.ofList key.toList, v) :: p.1, p.2)) = _
      obtain ⟨cs, hhead⟩ := @exists_renderEntries floats e entries ('}' :: rest)
      rw [hhead, skip_cons (by decide), ← hhead, htail (by omega), String.ofList_toList]
      rfl

/-- A list that does not end at once has items. -/
theorem parseValue_bracket (hc : ¬ Closes c) (fuel : ℕ) :
    parseValue floats (fuel + 1) ('[' :: c :: cs) =
      (parseItems floats fuel (c :: cs)).map fun p => (.list p.1, p.2) := by
  rw [parseValue, skip_cons hc]
  split
  · next heq =>
    injection heq with hbracket
    subst hbracket
    exact absurd (by decide) hc
  · rfl

/-- An object that does not end at once has entries. -/
theorem parseValue_brace (fuel : ℕ) :
    parseValue floats (fuel + 1) ('{' :: '"' :: cs) =
      (parseEntries floats fuel ('"' :: cs)).map fun p => (.dict (ofPairs p.1), p.2) := rfl

/-- **A value is read back as it was written**, in the order its objects have. -/
theorem reads_of_proper (hfloats : floats.Lawful) {v : JsonValue} (hv : v.Proper)
    (hfits : fits v = true) : Reads floats v := by
  have hfuel {c : Char} {cs : List Char} {n : ℕ} (h : (c :: cs).length ≤ n) : ∃ m, n = m + 1 := by
    rw [List.length_cons] at h
    exact ⟨n - 1, by omega⟩
  induction v using JsonValue.induct with
  | null =>
    intro fuel rest hlength _
    obtain ⟨fuel, rfl⟩ := hfuel hlength
    rfl
  | bool b =>
    intro fuel rest hlength _
    cases b <;>
    · obtain ⟨fuel, rfl⟩ := hfuel hlength
      rfl
  | int n =>
    intro fuel rest hlength hrest
    obtain ⟨c, cs, hrender, -⟩ := exists_render hfloats hv
    obtain ⟨fuel, rfl⟩ := hfuel (hrender ▸ hlength)
    have hn : (intText n).WellFormed := wellFormed_toDigits _ _
    rw [render, renderInt_eq, parseValue_number hn hrest, value_intText (of_decide_eq_true hfits),
      Option.map_some]
  | float x =>
    intro fuel rest hlength hrest
    obtain ⟨c, cs, hrender, -⟩ := exists_render hfloats hv
    obtain ⟨fuel, rfl⟩ := hfuel (hrender ▸ hlength)
    cases hv with
    | float _ hfinite =>
      have hfinite : x.IsFinite := hfinite
      obtain ⟨n, hn, hpoint, hrepr⟩ := hfloats.literal x hfinite
      have hnot : ¬ (n.fraction = [] ∧ n.exponent = []) := by
        rintro ⟨hfraction, hexponent⟩
        exact hpoint.elim (absurd hfraction) (absurd hexponent)
      rw [render, renderFloat, if_pos hfinite, hrepr, parseValue_number hn hrest, NumberText.value,
        if_neg hnot, ← hrepr, hfloats.parse_repr x hfinite, Option.map_some]
  | str s =>
    intro fuel rest hlength _
    obtain ⟨fuel, rfl⟩ := hfuel hlength
    rw [render, quote, List.cons_append, List.append_assoc, List.singleton_append]
    change (parseText (s.toList.flatMap escape ++ '"' :: rest)).map _ = _
    rw [parseText_quote]
    change some (JsonValue.str (String.ofList s.toList), rest) = _
    rw [String.ofList_toList]
  | list items ih =>
    intro fuel rest hlength _
    obtain ⟨fuel, rfl⟩ := hfuel hlength
    cases hv with
    | list _ parts =>
      rw [fits, fitsItems_eq, List.all_eq_true] at hfits
      rw [render, List.length_cons, List.length_append, List.length_singleton] at hlength
      rw [render, List.cons_append, List.append_assoc, List.singleton_append]
      cases items with
      | nil => rfl
      | cons v items =>
        obtain ⟨c, cs, hhead, hc⟩ := exists_renderItems hfloats (parts v (List.mem_cons_self ..))
          items (']' :: rest)
        have hitems := parseItems_render hfloats parts
          (fun w hw => ih w hw (parts w hw) (hfits w hw)) (List.cons_ne_nil _ _) rest fuel (by omega)
        rw [hhead] at hitems ⊢
        rw [parseValue_bracket hc, hitems]
        rfl
  | dict entries ih =>
    intro fuel rest hlength _
    obtain ⟨fuel, rfl⟩ := hfuel hlength
    cases hv with
    | dict hnodup parts =>
      rw [fits, fitsEntries_eq, List.all_eq_true] at hfits
      rw [render, List.length_cons, List.length_append, List.length_singleton] at hlength
      rw [render, List.cons_append, List.append_assoc, List.singleton_append]
      cases entries with
      | nil => rfl
      | cons e entries =>
        obtain ⟨cs, hhead⟩ := exists_renderEntries e entries ('}' :: rest)
        have hentries := parseEntries_render hfloats parts
          (fun w hw => ih w hw (parts w hw) (hfits w hw)) (List.cons_ne_nil _ _) rest fuel (by omega)
        rw [hhead] at hentries ⊢
        rw [parseValue_brace, hentries]
        change some (JsonValue.dict (ofPairs (e :: entries)), rest) = _
        rw [ofPairs_eq hnodup]

theorem fits_sortKeys (v : JsonValue) : fits v.sortKeys = fits v := by
  induction v using JsonValue.induct with
  | null | bool | int | float | str => rfl
  | list items ih =>
    rw [JsonValue.sortKeys_list, fits, fits, fitsItems_eq, fitsItems_eq, List.all_map,
      Bool.eq_iff_iff, List.all_eq_true, List.all_eq_true]
    exact forall₂_congr fun v hv => by rw [Function.comp_apply, ih v hv]
  | dict entries ih =>
    rw [JsonValue.sortKeys_dict, fits, fits, fitsEntries_eq, fitsEntries_eq,
      (JsonValue.perm_sortEntries _).all_eq, List.all_map, Bool.eq_iff_iff, List.all_eq_true,
      List.all_eq_true]
    exact forall₂_congr fun e he => by rw [Function.comp_apply, ih e he]

/-- **What was written is read back**, with the keys of its objects in order. -/
theorem loads_dumps (hfloats : floats.Lawful) {v : JsonValue} (hv : v.Proper) {text : List Char}
    (h : dumps floats v = some text) : loads floats (text ++ ['\n']) = some v.sortKeys := by
  unfold dumps at h
  split at h
  · next hfits =>
    obtain rfl := Option.some.inj h
    have hreads := reads_of_proper hfloats hv.sortKeys ((fits_sortKeys v).trans hfits)
    rw [loads, skip_render hfloats hv.sortKeys, hreads _ _ (by simp) (stops_cons (by decide))]
    rfl
  · cases h

/-! ### Control characters -/

/-- A text without control characters. -/
def Printable (cs : List Char) : Prop := ∀ c ∈ cs, 32 ≤ c.toNat

instance : DecidablePred Printable :=
  fun cs => List.decidableBAll (fun c : Char => 32 ≤ c.toNat) cs

theorem Printable.append (h : Printable cs) (hrest : Printable rest) : Printable (cs ++ rest) := by
  intro c hc
  rcases List.mem_append.mp hc with hc | hc
  · exact h c hc
  · exact hrest c hc

theorem Printable.cons (hc : 32 ≤ c.toNat) (h : Printable cs) : Printable (c :: cs) :=
  List.forall_mem_cons.mpr ⟨hc, h⟩

/-- A number is written with digits and five other characters. -/
theorem mem_chars {n : NumberText} (hn : n.WellFormed) (hc : c ∈ n.chars) :
    c.isDigit = true ∨ c ∈ ['-', '+', '.', 'e', 'E'] := by
  have hunsigned (hc : c ∈ n.unsigned) : c.isDigit = true ∨ c ∈ ['-', '+', '.', 'e', 'E'] := by
    rcases List.mem_append.mp hc with hc | hc
    · rcases hn.whole with hzero | ⟨-, -, hdigits⟩
      · rw [hzero, List.mem_singleton] at hc
        exact Or.inl (hc ▸ rfl)
      · exact Or.inl (hdigits c hc)
    rcases List.mem_append.mp hc with hc | hc
    · split_ifs at hc
      · cases hc
      · rcases List.mem_cons.mp hc with rfl | hc
        · exact Or.inr (by decide)
        · exact Or.inl (hn.fraction c hc)
    · rcases hn.exponent with hempty | ⟨e, sign, ds, hexponent, he, hsign, -, hdigits⟩
      · rw [hempty] at hc
        cases hc
      · rw [hexponent, List.mem_cons, List.mem_append] at hc
        rcases hc with rfl | hc | hc
        · rcases he with rfl | rfl <;> exact Or.inr (by decide)
        · rcases hsign with rfl | rfl | rfl
          · cases hc
          · obtain rfl := List.mem_singleton.mp hc
            exact Or.inr (by decide)
          · obtain rfl := List.mem_singleton.mp hc
            exact Or.inr (by decide)
        · exact Or.inl (hdigits c hc)
  unfold NumberText.chars at hc
  split_ifs at hc
  · rcases List.mem_cons.mp hc with rfl | hc
    · exact Or.inr (by decide)
    · exact hunsigned hc
  · exact hunsigned hc

/-- The number of a digit. -/
theorem toNat_digit (h : c.isDigit = true) : 48 ≤ c.toNat ∧ c.toNat ≤ 57 := by
  simp only [Char.isDigit, Bool.and_eq_true, decide_eq_true_eq] at h
  exact h

/-- A number has no control characters. -/
theorem printable_chars {n : NumberText} (hn : n.WellFormed) : Printable n.chars := by
  intro c hc
  rcases mem_chars hn hc with hdigit | hmark
  · have hnumber := toNat_digit hdigit
    omega
  · exact (by decide : Printable ['-', '+', '.', 'e', 'E']) c hmark

theorem printable_hexDigit : ∀ n < 16, 32 ≤ (hexDigit n).toNat := by decide

/-- Control characters are escaped. -/
theorem printable_escape (c : Char) : Printable (escape c) := by
  unfold escape
  split_ifs with _ _ _ _ _ _ _ hcontrol
  · decide
  · decide
  · decide
  · decide
  · decide
  · decide
  · decide
  · have hhigh := printable_hexDigit (c.toNat / 16) (by omega)
    have hlow := printable_hexDigit (c.toNat % 16) (by omega)
    exact .cons (by decide) (.cons (by decide) (.cons (by decide) (.cons (by decide)
      (.cons hhigh (.cons hlow (by decide))))))
  · exact .cons (not_lt.mp hcontrol) (by decide)

theorem printable_quote (s : String) : Printable (quote s) := by
  refine .cons (by decide) (.append ?_ (by decide))
  intro c hc
  obtain ⟨d, -, hd⟩ := List.mem_flatMap.mp hc
  exact printable_escape d c hd

theorem printable_renderItems {items : List JsonValue}
    (h : ∀ v ∈ items, Printable (render floats v)) : Printable (renderItems floats items) := by
  induction items with
  | nil => exact (by decide : Printable [])
  | cons v items ih =>
    obtain ⟨hv, hitems⟩ := List.forall_mem_cons.mp h
    cases items with
    | nil => exact hv
    | cons w items => exact hv.append (.cons (by decide) (ih hitems))

theorem printable_renderEntries {entries : List (String × JsonValue)}
    (h : ∀ e ∈ entries, Printable (render floats e.2)) : Printable (renderEntries floats entries) := by
  induction entries with
  | nil => exact (by decide : Printable [])
  | cons e entries ih =>
    obtain ⟨he, hentries⟩ := List.forall_mem_cons.mp h
    have hentry : Printable (renderEntry floats e) := by
      obtain ⟨key, v⟩ := e
      exact (printable_quote key).append (.cons (by decide) he)
    cases entries with
    | nil => exact hentry
    | cons e' entries => exact hentry.append (.cons (by decide) (ih hentries))

/-- **A canonical text has no control characters.** -/
theorem printable_render (hfloats : floats.Lawful) (v : JsonValue) :
    Printable (render floats v) := by
  induction v using JsonValue.induct with
  | null => exact (by decide : Printable "null".toList)
  | bool b =>
    cases b
    · exact (by decide : Printable "false".toList)
    · exact (by decide : Printable "true".toList)
  | int n =>
    rw [render, renderInt_eq]
    exact printable_chars (wellFormed_toDigits _ _)
  | float x =>
    rw [render, renderFloat]
    split_ifs with hfinite
    · obtain ⟨n, hn, -, hrepr⟩ := hfloats.literal x hfinite
      rw [hrepr]
      exact printable_chars hn
    · decide
    · decide
    · decide
  | str s => exact printable_quote s
  | list items ih => exact .cons (by decide) ((printable_renderItems ih).append (by decide))
  | dict entries ih => exact .cons (by decide) ((printable_renderEntries ih).append (by decide))

/-- An object fits where its parts do. -/
theorem fits_dict {entries : List (String × JsonValue)} :
    fits (.dict entries) = true ↔ ∀ e ∈ entries, fits e.2 = true := by
  rw [fits, fitsEntries_eq, List.all_eq_true]

end JsonText
