import CloudSpells.Machinery.Exec

/-!
# Core/Python — exceptions, methods and texts

`Py σ` is a Python method of an object whose attributes are `σ`: it returns or raises a `PyError`,
and the attributes it set before a raise stay set.
-/

namespace CloudSpells

open Machinery

/-- The exceptions the library's own code raises, or lets through from the standard library. -/
inductive PyError
  | runtimeError (message : String)
  | valueError (message : String)
  | attributeError (message : String)
  | assertionError
  | indexError
  | nameError (name : String)
  | recursionError
  deriving DecidableEq, Repr

/-- A method over attributes `σ`. -/
abbrev Py (σ α : Type) := Exec PyError σ α

@[simp] theorem ok_bind {ε α β : Type} (a : α) (f : α → Except ε β) :
    (Except.ok a >>= f) = f a := rfl

/-- **What a sequence returned, its first part returned.** -/
theorem bind_eq_ok {ε α β : Type} {x : Except ε α} {f : α → Except ε β} {b : β} :
    (x >>= f) = .ok b ↔ ∃ a, x = .ok a ∧ f a = .ok b := by
  cases x with
  | error e => exact iff_of_false (fun h => by cases h) fun ⟨a, h, _⟩ => by cases h
  | ok a => exact ⟨fun h => ⟨a, rfl, h⟩, fun ⟨a', h, hf⟩ => Except.ok.inj h ▸ hf⟩

@[simp] theorem error_bind {ε α β : Type} (e : ε) (f : α → Except ε β) :
    (Except.error e >>= f) = .error e := rfl

/-- `xs[i]`, for a non-negative index. -/
def getItem {α : Type} (xs : List α) (i : ℕ) : Except PyError α :=
  match xs[i]? with
  | some x => .ok x
  | none => .error .indexError

@[simp] theorem getItem_nil {α : Type} (i : ℕ) :
    getItem ([] : List α) i = .error .indexError := rfl

@[simp] theorem getItem_cons_zero {α : Type} (x : α) (xs : List α) :
    getItem (x :: xs) 0 = .ok x := rfl

@[simp] theorem getItem_cons_succ {α : Type} (x : α) (xs : List α) (i : ℕ) :
    getItem (x :: xs) (i + 1) = getItem xs i := rfl

/-- `s or default`, for an optional string: the empty string is falsy too. -/
def strOr (s : Option String) (default : String) : String :=
  match s with
  | none => default
  | some s => if s = "" then default else s

/-- A default is taken once. -/
theorem strOr_strOr (s : Option String) (default : String) :
    strOr (some (strOr s default)) default = strOr s default := by
  cases s with
  | none => exact ite_self default
  | some s =>
    by_cases hs : s = ""
    · simp [strOr, hs]
    · simp [strOr, hs]

/-- The characters that `repr` writes as escapes: the control characters, the separators but for
the space, the format characters and those of private use.  Of the code points Unicode has not
assigned it escapes all too; here they stand for themselves. -/
def unprintable : List (ℕ × ℕ) :=
  [(0x0, 0x1f), (0x7f, 0xa0), (0xad, 0xad), (0x600, 0x605), (0x61c, 0x61c), (0x6dd, 0x6dd),
   (0x70f, 0x70f), (0x890, 0x891), (0x8e2, 0x8e2), (0x1680, 0x1680), (0x180e, 0x180e),
   (0x2000, 0x200f), (0x2028, 0x202f), (0x205f, 0x2064), (0x2066, 0x206f), (0x3000, 0x3000),
   (0xe000, 0xf8ff), (0xfeff, 0xfeff), (0xfff9, 0xfffb), (0x110bd, 0x110bd), (0x110cd, 0x110cd),
   (0x13430, 0x1343f), (0x1bca0, 0x1bca3), (0x1d173, 0x1d17a), (0xe0001, 0xe0001),
   (0xe0020, 0xe007f), (0xf0000, 0xffffd), (0x100000, 0x10fffd)]

/-- The last `width` hexadecimal digits of a number. -/
def hexDigits : (width n : ℕ) → List Char
  | 0, _ => []
  | width + 1, n => hexDigits width (n / 16) ++ [Nat.digitChar (n % 16)]

/-- A character within a `repr` between quotes `quote`. -/
def reprChar (quote c : Char) : List Char :=
  if c = '\\' ∨ c = quote then ['\\', c]
  else if c = '\n' then ['\\', 'n']
  else if c = '\r' then ['\\', 'r']
  else if c = '\t' then ['\\', 't']
  else if unprintable.any fun range => range.1 ≤ c.toNat ∧ c.toNat ≤ range.2 then
    if c.toNat < 0x100 then '\\' :: 'x' :: hexDigits 2 c.toNat
    else if c.toNat < 0x10000 then '\\' :: 'u' :: hexDigits 4 c.toNat
    else '\\' :: 'U' :: hexDigits 8 c.toNat
  else [c]

/-- `repr` of a string: between double quotes where it has single quotes only, else between
single ones. -/
def pyRepr (s : String) : String :=
  let single := Char.ofNat 39
  let double := Char.ofNat 34
  let quote := if single ∈ s.toList ∧ double ∉ s.toList then double else single
  String.ofList (quote :: s.toList.flatMap (reprChar quote) ++ [quote])

end CloudSpells
