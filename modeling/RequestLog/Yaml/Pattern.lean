/-
Patterns that a whole text matches or does not, decided character by
character: what remains to be matched after a character is again a pattern.
-/
import RequestLog.Text

namespace RequestLog.Yaml

inductive Pattern where
  | never
  | empty
  | one (p : Nat → Bool)
  | seq (a b : Pattern)
  | alt (a b : Pattern)
  | many (a : Pattern)

namespace Pattern

/-- Whether a pattern matches the empty text. -/
def nullable : Pattern → Bool
  | never => false
  | empty => true
  | one _ => false
  | seq a b => a.nullable && b.nullable
  | alt a b => a.nullable || b.nullable
  | many _ => true

/-- A sequence, without parts that do nothing. -/
def seq' : Pattern → Pattern → Pattern
  | never, _ => never
  | _, never => never
  | empty, b => b
  | a, b => seq a b

/-- A choice, without parts that never match. -/
def alt' : Pattern → Pattern → Pattern
  | never, b => b
  | a, never => a
  | a, b => alt a b

/-- What remains after a character. -/
def after (c : Nat) : Pattern → Pattern
  | never => never
  | empty => never
  | one p => if p c then empty else never
  | seq a b => if a.nullable then alt' (seq' (a.after c) b) (b.after c) else seq' (a.after c) b
  | alt a b => alt' (a.after c) (b.after c)
  | many a => seq' (a.after c) (many a)

def accepts (p : Pattern) (t : Text) : Bool := (t.foldl (fun p c => p.after c) p).nullable

/-! ## Building patterns -/

def char (c : Char) : Pattern := one (· == c.toNat)

/-- A character of a list or of a range in it. -/
def range (first last : Char) : Pattern := one fun c => first.toNat ≤ c && c ≤ last.toNat

def word (s : String) : Pattern := s.toList.foldr (fun c p => seq' (char c) p) empty

def all (ps : List Pattern) : Pattern := ps.foldr seq' empty

def any (ps : List Pattern) : Pattern := ps.foldr alt' never

def words (ws : List String) : Pattern := any (ws.map word)

def opt (p : Pattern) : Pattern := alt empty p

def some1 (p : Pattern) : Pattern := seq p (many p)

end Pattern

end RequestLog.Yaml
