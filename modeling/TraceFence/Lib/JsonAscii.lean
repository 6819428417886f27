import TraceFence.Lib.JsonRoundTrip

/-!
# JSON texts in ASCII

The writer of canonical JSON that escapes every character that is not ASCII: by its number in four
hexadecimal digits, or by those of two surrogates. What it writes is what the other writer does,
with those characters escaped.

## Main definitions

* `JsonText.renderAscii`, `JsonText.dumpsAscii` — the writer
* `JsonText.asciify` — the escapes, on a text

## Main results

* `JsonText.printable_renderAscii` — no control character is written
* `JsonText.dumpsAscii_injective` — values with one text are equal, but for the order of keys
-/

namespace JsonText

/-! ### Writing -/

/-- The escape of a number of 16 bits. -/
def unicodeEscape (n : ℕ) : List Char :=
  ['\\', 'u', hexDigit (n / 4096), hexDigit (n / 256 % 16), hexDigit (n / 16 % 16),
    hexDigit (n % 16)]

/-- The escape of a character that is not ASCII. -/
def escapeWide (c : Char) : List Char :=
  if c.toNat < 0x10000 then unicodeEscape c.toNat
  else unicodeEscape (0xd800 + (c.toNat - 0x10000) / 0x400) ++
    unicodeEscape (0xdc00 + (c.toNat - 0x10000) % 0x400)

/-- A character of a text. -/
def escapeAscii (c : Char) : List Char := if c.toNat < 127 then escape c else escapeWide c

/-- A text in quotes. -/
def quoteAscii (s : String) : List Char := '"' :: (s.toList.flatMap escapeAscii ++ ['"'])

variable (floats : Floats)

mutual

/-- A value, in the order its objects have. -/
def renderAscii : JsonValue → List Char
  | .null => "null".toList
  | .bool true => "true".toList
  | .bool false => "false".toList
  | .int n => renderInt n
  | .float x => renderFloat floats x
  | .str s => quoteAscii s
  | .list items => '[' :: (renderAsciiItems items ++ [']'])
  | .dict entries => '{' :: (renderAsciiEntries entries ++ ['}'])

def renderAsciiItems : List JsonValue → List Char
  | [] => []
  | [v] => renderAscii v
  | v :: items => renderAscii v ++ ',' :: renderAsciiItems items

def renderAsciiEntries : List (String × JsonValue) → List Char
  | [] => []
  | [e] => renderAsciiEntry e
  | e :: entries => renderAsciiEntry e ++ ',' :: renderAsciiEntries entries

def renderAsciiEntry : String × JsonValue → List Char
  | (key, v) => quoteAscii key ++ ':' :: renderAscii v

end

/-- The canonical text of a value in ASCII, unless an integer in it has too many digits. -/
def dumpsAscii (v : JsonValue) : Option (List Char) :=
  if fits v then some (renderAscii floats v.sortKeys) else none

variable {floats} {cs rest : List Char} {c : Char}

/-! ### The escapes, on a text -/

/-- A text with the characters that are not ASCII escaped. -/
def asciify (cs : List Char) : List Char :=
  cs.flatMap fun c => if c.toNat < 127 then [c] else escapeWide c

theorem asciify_append (cs rest : List Char) : asciify (cs ++ rest) = asciify cs ++ asciify rest :=
  List.flatMap_append

theorem asciify_cons (h : c.toNat < 127) (cs : List Char) : asciify (c :: cs) = c :: asciify cs := by
  rw [asciify, List.flatMap_cons, if_pos h]
  rfl

theorem asciify_cons_wide (h : ¬ c.toNat < 127) (cs : List Char) :
    asciify (c :: cs) = escapeWide c ++ asciify cs := by
  rw [asciify, List.flatMap_cons, if_neg h]
  rfl

/-- A text of ASCII characters. -/
def Ascii (cs : List Char) : Prop := ∀ c ∈ cs, c.toNat < 127

instance : DecidablePred Ascii :=
  fun cs => List.decidableBAll (fun c : Char => c.toNat < 127) cs

theorem asciify_of_ascii (h : Ascii cs) : asciify cs = cs := by
  induction cs with
  | nil => rfl
  | cons c cs ih =>
    obtain ⟨hc, hcs⟩ := List.forall_mem_cons.mp h
    rw [asciify_cons hc, ih hcs]

theorem ascii_hexDigit : ∀ n < 16, (hexDigit n).toNat < 127 := by decide

theorem ascii_escape (h : c.toNat < 127) : Ascii (escape c) := by
  unfold escape
  split_ifs with _ _ _ _ _ _ _ hcontrol
  · decide
  · decide
  · decide
  · decide
  · decide
  · decide
  · decide
  · have hhigh := ascii_hexDigit (c.toNat / 16) (by omega)
    have hlow := ascii_hexDigit (c.toNat % 16) (by omega)
    simp only [Ascii, List.forall_mem_cons]
    exact ⟨by decide, by decide, by decide, by decide, hhigh, hlow,
      fun _ hd => absurd hd List.not_mem_nil⟩
  · intro d hd
    rwa [List.mem_singleton.mp hd]

theorem escape_of_wide (h : ¬ c.toNat < 127) : escape c = [c] := by
  have hne {d : Char} (hd : d.toNat < 127) : c ≠ d := by
    rintro rfl
    exact h hd
  unfold escape
  rw [if_neg (hne (by decide)), if_neg (hne (by decide)), if_neg (hne (by decide)),
    if_neg (hne (by decide)), if_neg (hne (by decide)), if_neg (hne (by decide)),
    if_neg (hne (by decide)), if_neg (by omega)]

/-- A character is escaped on the text as by the writer. -/
theorem asciify_escape (c : Char) : asciify (escape c) = escapeAscii c := by
  unfold escapeAscii
  split_ifs with h
  · exact asciify_of_ascii (ascii_escape h)
  · rw [escape_of_wide h, asciify_cons_wide h]
    exact List.append_nil _

theorem asciify_quote (s : String) : asciify (quote s) = quoteAscii s := by
  have htext (text : List Char) : asciify (text.flatMap escape) = text.flatMap escapeAscii := by
    induction text with
    | nil => rfl
    | cons c text ih => rw [List.flatMap_cons, asciify_append, asciify_escape, ih, List.flatMap_cons]
  rw [quote, quoteAscii, asciify_cons (by decide), asciify_append, htext]
  rfl

/-- Numbers are ASCII. -/
theorem ascii_chars {n : NumberText} (hn : n.WellFormed) : Ascii n.chars := by
  intro c hc
  rcases mem_chars hn hc with hdigit | hmark
  · have hnumber := toNat_digit hdigit
    omega
  · exact (by decide : Ascii ['-', '+', '.', 'e', 'E']) c hmark

theorem asciify_renderItems {items : List JsonValue}
    (h : ∀ v ∈ items, asciify (render floats v) = renderAscii floats v) :
    asciify (renderItems floats items) = renderAsciiItems floats items := by
  induction items with
  | nil => rfl
  | cons v items ih =>
    obtain ⟨hv, hitems⟩ := List.forall_mem_cons.mp h
    cases items with
    | nil => exact hv
    | cons w items =>
      rw [renderItems, renderAsciiItems, asciify_append, asciify_cons (by decide), hv, ih hitems]
      · exact List.cons_ne_nil _ _
      · exact List.cons_ne_nil _ _

theorem asciify_renderEntries {entries : List (String × JsonValue)}
    (h : ∀ e ∈ entries, asciify (render floats e.2) = renderAscii floats e.2) :
    asciify (renderEntries floats entries) = renderAsciiEntries floats entries := by
  induction entries with
  | nil => rfl
  | cons e entries ih =>
    obtain ⟨he, hentries⟩ := List.forall_mem_cons.mp h
    have hentry : asciify (renderEntry floats e) = renderAsciiEntry floats e := by
      obtain ⟨key, v⟩ := e
      rw [renderEntry, renderAsciiEntry, asciify_append, asciify_quote, asciify_cons (by decide), he]
    cases entries with
    | nil => exact hentry
    | cons e' entries =>
      rw [renderEntries, renderAsciiEntries, asciify_append, asciify_cons (by decide), hentry,
        ih hentries]
      · exact List.cons_ne_nil _ _
      · exact List.cons_ne_nil _ _

/-- **The two writers differ in the escapes only.** -/
theorem asciify_render (hfloats : floats.Lawful) (v : JsonValue) :
    asciify (render floats v) = renderAscii floats v := by
  induction v using JsonValue.induct with
  | null => rfl
  | bool b =>
    cases b
    · rfl
    · rfl
  | int n =>
    rw [render, renderAscii, renderInt_eq]
    exact asciify_of_ascii (ascii_chars (wellFormed_toDigits _ _))
  | float x =>
    rw [render, renderAscii, renderFloat]
    split_ifs with hfinite
    · obtain ⟨n, hn, -, hrepr⟩ := hfloats.literal x hfinite
      rw [hrepr]
      exact asciify_of_ascii (ascii_chars hn)
    · exact asciify_of_ascii (by decide)
    · exact asciify_of_ascii (by decide)
    · exact asciify_of_ascii (by decide)
  | str s => exact asciify_quote s
  | list items ih =>
    rw [render, renderAscii, asciify_cons (by decide), asciify_append, asciify_renderItems ih]
    rfl
  | dict entries ih =>
    rw [render, renderAscii, asciify_cons (by decide), asciify_append, asciify_renderEntries ih]
    rfl

/-- The numbers that are those of characters. -/
theorem char_cases (c : Char) : c.toNat < 0xd800 ∨ 0xdfff < c.toNat ∧ c.toNat < 0x110000 := c.valid

theorem printable_escapeWide (c : Char) : Printable (escapeWide c) := by
  have hdigit (n : ℕ) (h : n < 16) : 32 ≤ (hexDigit n).toNat := printable_hexDigit n h
  have hescape (n : ℕ) (hn : n < 0x10000) : Printable (unicodeEscape n) :=
    .cons (by decide) (.cons (by decide) (.cons (hdigit _ (by omega)) (.cons (hdigit _ (by omega))
      (.cons (hdigit _ (by omega)) (.cons (hdigit _ (by omega)) (by decide))))))
  unfold escapeWide
  have hc := char_cases c
  split_ifs with h
  · exact hescape _ h
  · exact (hescape _ (by omega)).append (hescape _ (by omega))

/-- **A text in ASCII has no control characters.** -/
theorem printable_renderAscii (hfloats : floats.Lawful) (v : JsonValue) :
    Printable (renderAscii floats v) := by
  rw [← asciify_render hfloats]
  intro c hc
  obtain ⟨d, hd, hc⟩ := List.mem_flatMap.mp hc
  split_ifs at hc
  · rw [List.mem_singleton.mp hc]
    exact printable_render hfloats v d hd
  · exact printable_escapeWide d c hc

/-! ### The escapes are undone -/

/-- A text with the escapes of characters that are not ASCII undone. -/
def unasciify : List Char → List Char
  | '\\' :: 'u' :: a :: b :: c :: d :: rest =>
    (hexValues a b c d).elim [] fun value =>
      if value < 127 then '\\' :: 'u' :: a :: b :: c :: d :: unasciify rest
      else if value < 0xd800 ∨ 0xe000 ≤ value then Char.ofNat value :: unasciify rest
      else
        match rest with
        | '\\' :: 'u' :: a :: b :: c :: d :: rest =>
          (hexValues a b c d).elim [] fun low =>
            Char.ofNat (0x10000 + 0x400 * (value - 0xd800) + (low - 0xdc00)) :: unasciify rest
        | _ => []
  | '\\' :: e :: rest => '\\' :: e :: unasciify rest
  | c :: rest => c :: unasciify rest
  | [] => []

theorem hexValues_hexDigits {n : ℕ} (hn : n < 0x10000) :
    hexValues (hexDigit (n / 4096)) (hexDigit (n / 256 % 16)) (hexDigit (n / 16 % 16))
      (hexDigit (n % 16)) = some n := by
  rw [hexValues, hexValue_hexDigit _ (by omega), hexValue_hexDigit _ (by omega),
    hexValue_hexDigit _ (by omega), hexValue_hexDigit _ (by omega)]
  change some (4096 * (n / 4096) + 256 * (n / 256 % 16) + 16 * (n / 16 % 16) + n % 16) = some n
  congr 1
  omega

theorem unasciify_plain (h : c ≠ '\\') : unasciify (c :: rest) = c :: unasciify rest := by
  rw [unasciify.eq_def]
  split
  · next heq =>
    injection heq with hc
    exact absurd hc h
  · next heq =>
    injection heq with hc
    exact absurd hc h
  · next heq =>
    injection heq with hc hrest
    rw [hc, hrest]
  · next heq => cases heq

theorem unasciify_short {e : Char} (h : e ≠ 'u') :
    unasciify ('\\' :: e :: rest) = '\\' :: e :: unasciify rest := by
  rw [unasciify.eq_def]
  split
  · next heq =>
    injection heq with _ heq
    injection heq with he
    exact absurd he h
  · next heq =>
    injection heq with _ heq
    injection heq with he hrest
    rw [he, hrest]
  · next hne heq =>
    injection heq with hc hrest
    exact (hne _ _ hc.symm hrest.symm).elim
  · next heq => cases heq

/-- The escape of a control character stays. -/
theorem unasciify_control {n : ℕ} (hn : n < 127) :
    unasciify (unicodeEscape n ++ rest) = unicodeEscape n ++ unasciify rest := by
  change unasciify ('\\' :: 'u' :: hexDigit (n / 4096) :: hexDigit (n / 256 % 16) ::
    hexDigit (n / 16 % 16) :: hexDigit (n % 16) :: rest) = _
  rw [unasciify, hexValues_hexDigits (by omega), Option.elim_some, if_pos hn]
  rfl

/-- The escape of a character that is not ASCII is undone. -/
theorem unasciify_wide (h : ¬ c.toNat < 127) :
    unasciify (escapeWide c ++ rest) = c :: unasciify rest := by
  have hchar := char_cases c
  unfold escapeWide
  split_ifs with hplane
  · change unasciify ('\\' :: 'u' :: hexDigit (c.toNat / 4096) :: hexDigit (c.toNat / 256 % 16) ::
      hexDigit (c.toNat / 16 % 16) :: hexDigit (c.toNat % 16) :: rest) = _
    rw [unasciify, hexValues_hexDigits hplane, Option.elim_some, if_neg h, if_pos (by omega),
      Char.ofNat_toNat]
  · obtain ⟨k, hk⟩ : ∃ k, k = c.toNat - 0x10000 := ⟨_, rfl⟩
    rw [← hk, List.append_assoc]
    change unasciify ('\\' :: 'u' :: hexDigit ((0xd800 + k / 0x400) / 4096) ::
      hexDigit ((0xd800 + k / 0x400) / 256 % 16) :: hexDigit ((0xd800 + k / 0x400) / 16 % 16) ::
      hexDigit ((0xd800 + k / 0x400) % 16) :: '\\' :: 'u' ::
      hexDigit ((0xdc00 + k % 0x400) / 4096) :: hexDigit ((0xdc00 + k % 0x400) / 256 % 16) ::
      hexDigit ((0xdc00 + k % 0x400) / 16 % 16) :: hexDigit ((0xdc00 + k % 0x400) % 16) :: rest) = _
    rw [unasciify, hexValues_hexDigits (by omega), Option.elim_some, if_neg (by omega),
      if_neg (by omega)]
    change (hexValues (hexDigit ((0xdc00 + k % 0x400) / 4096))
      (hexDigit ((0xdc00 + k % 0x400) / 256 % 16)) (hexDigit ((0xdc00 + k % 0x400) / 16 % 16))
      (hexDigit ((0xdc00 + k % 0x400) % 16))).elim _ _ = _
    rw [hexValues_hexDigits (by omega), Option.elim_some]
    have hvalue : 0x10000 + 0x400 * (0xd800 + k / 0x400 - 0xd800) + (0xdc00 + k % 0x400 - 0xdc00) =
        c.toNat := by omega
    rw [hvalue, Char.ofNat_toNat]

/-- A text in which every backslash begins an escape, and the number of none is that of a character
that is not ASCII. -/
inductive Escaped : List Char → Prop
  | nil : Escaped []
  | plain {c : Char} {cs : List Char} (hc : c ≠ '\\') (h : Escaped cs) : Escaped (c :: cs)
  | short {e : Char} {cs : List Char} (hu : e ≠ 'u') (he : e.toNat < 127) (h : Escaped cs) :
      Escaped ('\\' :: e :: cs)
  | control {n : ℕ} {cs : List Char} (hn : n < 127) (h : Escaped cs) :
      Escaped (unicodeEscape n ++ cs)

theorem unasciify_asciify (h : Escaped cs) : unasciify (asciify cs) = cs := by
  induction h with
  | nil => rfl
  | @plain c cs hc _ ih =>
    by_cases hwide : c.toNat < 127
    · rw [asciify_cons hwide, unasciify_plain hc, ih]
    · rw [asciify_cons_wide hwide, unasciify_wide hwide, ih]
  | @short e cs hu he _ ih =>
    rw [asciify_cons (by decide), asciify_cons he, unasciify_short hu, ih]
  | @control n cs hn _ ih =>
    have hascii : asciify (unicodeEscape n) = unicodeEscape n := by
      refine asciify_of_ascii ?_
      simp only [Ascii, unicodeEscape, List.forall_mem_cons]
      exact ⟨by decide, by decide, ascii_hexDigit _ (by omega), ascii_hexDigit _ (by omega),
        ascii_hexDigit _ (by omega), ascii_hexDigit _ (by omega),
        fun _ hd => absurd hd List.not_mem_nil⟩
    rw [asciify_append, hascii, unasciify_control hn, ih]

theorem Escaped.append (h : Escaped cs) (hrest : Escaped rest) : Escaped (cs ++ rest) := by
  induction h with
  | nil => exact hrest
  | plain hc _ ih => exact ih.plain hc
  | short hu he _ ih => exact ih.short hu he
  | control hn _ ih =>
    rw [List.append_assoc]
    exact ih.control hn

theorem escaped_of_plain (h : '\\' ∉ cs) : Escaped cs := by
  induction cs with
  | nil => exact .nil
  | cons c cs ih =>
    rw [List.mem_cons, not_or] at h
    exact (ih h.2).plain (Ne.symm h.1)

theorem escaped_escape (c : Char) : Escaped (escape c) := by
  unfold escape
  split_ifs with _ hslash _ _ _ _ _ hcontrol
  · exact .short (by decide) (by decide) .nil
  · exact .short (by decide) (by decide) .nil
  · exact .short (by decide) (by decide) .nil
  · exact .short (by decide) (by decide) .nil
  · exact .short (by decide) (by decide) .nil
  · exact .short (by decide) (by decide) .nil
  · exact .short (by decide) (by decide) .nil
  · have hzero : '0' = hexDigit 0 := rfl
    have hescape : unicodeEscape c.toNat ++ [] = ['\\', 'u', '0', '0', hexDigit (c.toNat / 16),
        hexDigit (c.toNat % 16)] := by
      rw [unicodeEscape, hzero, show c.toNat / 4096 = 0 by omega,
        show c.toNat / 256 % 16 = 0 by omega, show c.toNat / 16 % 16 = c.toNat / 16 by omega]
      rfl
    exact hescape ▸ Escaped.nil.control (by omega)
  · exact .plain hslash .nil

theorem escaped_quote (s : String) : Escaped (quote s) := by
  have htext (text : List Char) : Escaped (text.flatMap escape) := by
    induction text with
    | nil => exact .nil
    | cons c text ih => exact (escaped_escape c).append ih
  exact .plain (by decide) ((htext _).append (escaped_of_plain (by decide)))

theorem escaped_chars {n : NumberText} (hn : n.WellFormed) : Escaped n.chars := by
  refine escaped_of_plain fun hc => ?_
  rcases mem_chars hn hc with hdigit | hmark
  · exact absurd hdigit (by decide)
  · exact absurd hmark (by decide)

theorem escaped_renderItems {items : List JsonValue}
    (h : ∀ v ∈ items, Escaped (render floats v)) : Escaped (renderItems floats items) := by
  induction items with
  | nil => exact .nil
  | cons v items ih =>
    obtain ⟨hv, hitems⟩ := List.forall_mem_cons.mp h
    cases items with
    | nil => exact hv
    | cons w items => exact hv.append (.plain (by decide) (ih hitems))

theorem escaped_renderEntries {entries : List (String × JsonValue)}
    (h : ∀ e ∈ entries, Escaped (render floats e.2)) : Escaped (renderEntries floats entries) := by
  induction entries with
  | nil => exact .nil
  | cons e entries ih =>
    obtain ⟨he, hentries⟩ := List.forall_mem_cons.mp h
    have hentry : Escaped (renderEntry floats e) := by
      obtain ⟨key, v⟩ := e
      exact (escaped_quote key).append (.plain (by decide) he)
    cases entries with
    | nil => exact hentry
    | cons e' entries => exact hentry.append (.plain (by decide) (ih hentries))

theorem escaped_render (hfloats : floats.Lawful) (v : JsonValue) : Escaped (render floats v) := by
  induction v using JsonValue.induct with
  | null => exact (escaped_of_plain (by decide) : Escaped "null".toList)
  | bool b =>
    cases b
    · exact (escaped_of_plain (by decide) : Escaped "false".toList)
    · exact (escaped_of_plain (by decide) : Escaped "true".toList)
  | int n =>
    rw [render, renderInt_eq]
    exact escaped_chars (wellFormed_toDigits _ _)
  | float x =>
    rw [render, renderFloat]
    split_ifs with hfinite
    · obtain ⟨n, hn, -, hrepr⟩ := hfloats.literal x hfinite
      rw [hrepr]
      exact escaped_chars hn
    · exact escaped_of_plain (by decide)
    · exact escaped_of_plain (by decide)
    · exact escaped_of_plain (by decide)
  | str s => exact escaped_quote s
  | list items ih =>
    exact .plain (by decide) ((escaped_renderItems ih).append (escaped_of_plain (by decide)))
  | dict entries ih =>
    exact .plain (by decide) ((escaped_renderEntries ih).append (escaped_of_plain (by decide)))

/-- **Values with one canonical text in ASCII** are equal, but for the order of keys. -/
theorem dumpsAscii_injective (hfloats : floats.Lawful) {v w : JsonValue} (hv : v.Proper)
    (hw : w.Proper) {text : List Char} (htext : dumpsAscii floats v = some text)
    (htext' : dumpsAscii floats w = some text) : v.sortKeys = w.sortKeys := by
  unfold dumpsAscii at htext htext'
  split_ifs at htext htext' with hfits hfits'
  have hascii : asciify (render floats v.sortKeys) = asciify (render floats w.sortKeys) := by
    rw [asciify_render hfloats, asciify_render hfloats, Option.some.inj htext,
      Option.some.inj htext']
  have hrender : render floats v.sortKeys = render floats w.sortKeys := by
    rw [← unasciify_asciify (escaped_render hfloats v.sortKeys), hascii,
      unasciify_asciify (escaped_render hfloats w.sortKeys)]
  have hread := loads_dumps hfloats hv (if_pos hfits)
  have hread' := loads_dumps hfloats hw (if_pos hfits')
  rw [hrender] at hread
  exact Option.some.inj (hread.symm.trans hread')

end JsonText
