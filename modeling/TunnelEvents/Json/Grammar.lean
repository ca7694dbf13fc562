import TunnelEvents.Json.Basic

/-!
# The grammar of JSON texts

A text spells a value if it is the tokens of the value in order, with white space before, between
and after them.  Most tokens have one spelling.  A string has many: each of its characters may stand
as itself unless it must be escaped, may have a short escape, and may be named by one or two escaped
units.

This states which texts a reader has to accept, and as what, without a reader.

## Main definitions

* `CharSpelling` — how a character may be written in a string.
* `TextSpelling` — how a sequence of characters may be written in a string.
* `TokenSpelling` — how a token may be written.
* `Spelling` — how a sequence of tokens may be written.
* `Json.Spells` — a text is a document of a value.
-/

namespace TunnelEvents.Json

/-- The characters of a text are all white space. -/
def Blank (cs : List Char) : Prop := ∀ c ∈ cs, isBlank c = true

/-- How a character may be written in a string. -/
inductive CharSpelling : Char → List Char → Prop
  /-- As itself. -/
  | plain {c : Char} : StringLiteral.isPlain c = true → CharSpelling c [c]
  /-- By a short escape. -/
  | short {letter c : Char} :
    StringLiteral.ofShortEscape? letter = some c → CharSpelling c ['\\', letter]
  /-- By one unit, which is not of a pair. -/
  | unit {p q r s : Char} {n : Nat} :
    StringLiteral.hexUnit? p q r s = some n → n < 0xD800 ∨ 0xE000 ≤ n →
      CharSpelling (Char.ofNat n) ['\\', 'u', p, q, r, s]
  /-- By a pair of units. -/
  | pair {p q r s p' q' r' s' : Char} {n m : Nat} :
    StringLiteral.hexUnit? p q r s = some n → StringLiteral.hexUnit? p' q' r' s' = some m →
      0xD800 ≤ n → n < 0xDC00 → 0xDC00 ≤ m → m < 0xE000 →
      CharSpelling (StringLiteral.pair n m)
        ['\\', 'u', p, q, r, s, '\\', 'u', p', q', r', s']

/-- How a sequence of characters may be written in a string. -/
inductive TextSpelling : List Char → List Char → Prop
  | nil : TextSpelling [] []
  | cons {c : Char} {cs spelled rest : List Char} :
    CharSpelling c spelled → TextSpelling cs rest → TextSpelling (c :: cs) (spelled ++ rest)

/-- How a token may be written. -/
inductive TokenSpelling : Token → List Char → Prop
  /-- A string stands between quotation marks. -/
  | string {s : String} {spelled : List Char} :
    TextSpelling s.toList spelled → TokenSpelling (.string s) ('"' :: spelled ++ ['"'])
  /-- A numeral stands as it is. -/
  | number {n : Numeral} : n.Valid → TokenSpelling (.number n) n.spelling
  /-- Every other token has one spelling. -/
  | fixed {t : Token} : (∀ s, t ≠ .string s) → (∀ n, t ≠ .number n) → TokenSpelling t t.spelling

/-- How a sequence of tokens may be written.  No gap is asked for between tokens: among the tokens
of a value, two words or numerals never follow each other. -/
inductive Spelling : List Token → List Char → Prop
  | nil {blank : List Char} : Blank blank → Spelling [] blank
  | cons {t : Token} {ts : List Token} {blank spelled rest : List Char} :
    Blank blank → TokenSpelling t spelled → Spelling ts rest →
      Spelling (t :: ts) (blank ++ spelled ++ rest)

/-- A text is a document of a value. -/
def Spells (v : Json) (text : String) : Prop := Spelling v.tokens text.toList

/-! ### Putting texts together -/

theorem blank_nil : Blank [] := fun _ h => absurd h List.not_mem_nil

theorem Blank.append {cs ds : List Char} (hc : Blank cs) (hd : Blank ds) : Blank (cs ++ ds) := by
  intro c h
  rcases List.mem_append.mp h with h | h
  · exact hc c h
  · exact hd c h

/-- The spelling of one token. -/
theorem TokenSpelling.spelling {t : Token} {cs : List Char} (h : TokenSpelling t cs) :
    Spelling [t] cs := by
  have hspelling := Spelling.cons blank_nil h (.nil blank_nil)
  rwa [List.nil_append, List.append_nil] at hspelling

/-- White space may be added in front. -/
theorem Spelling.blank_append {ts : List Token} {blank spelled : List Char} (hb : Blank blank)
    (h : Spelling ts spelled) : Spelling ts (blank ++ spelled) := by
  cases h with
  | nil hn => exact .nil (hb.append hn)
  | cons hn ht hr =>
    rw [← List.append_assoc, ← List.append_assoc]
    exact .cons (hb.append hn) ht hr

/-- Spellings may be put together. -/
theorem Spelling.append {ts us : List Token} {cs ds : List Char} (ht : Spelling ts cs)
    (hu : Spelling us ds) : Spelling (ts ++ us) (cs ++ ds) := by
  induction ht with
  | nil hb => exact hu.blank_append hb
  | cons hb ht _ ih =>
    rw [List.append_assoc]
    exact .cons hb ht ih

end TunnelEvents.Json
