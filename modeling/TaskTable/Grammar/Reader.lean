/-!
# Readers

A reader takes a form off the front of a text. Readers are built from ordered choice, sequence and
repetition; a choice that has matched is not reconsidered.

Beside what it reads, each reader says which *named* rules to blame when the text as a whole does
not match: the rules that failed at the furthest point that any rule failed at. The two parts
never mix, so a statement about what is read does not look at the blame.
-/

namespace TaskTable
namespace Grammar

/-- The rules that failed furthest into a text. Points are counted from the end: `rest` is the
number of characters that were still unread there, so a smaller number lies further in. -/
structure Blame (ρ : Type) where
  rest : Nat
  rules : List ρ

namespace Blame

variable {ρ : Type}

/-- How many rules are blamed at the point with `n` characters unread. -/
def countAt (b : Blame ρ) (n : Nat) : Nat :=
  if n = b.rest then b.rules.length else 0

/-- The rule `r` failed with `n` characters unread. `before` is the blame when its attempt began,
`after` the blame once its parts were tried. A rule whose parts put exactly one new name at its own
point leaves that name standing; otherwise its own name replaces theirs. -/
def charge (after : Blame ρ) (r : ρ) (n : Nat) (before : Blame ρ) : Blame ρ :=
  let known := before.countAt n
  if after.countAt n - known = 1 then after
  else if n = after.rest then ⟨n, after.rules.take known ++ [r]⟩
  else if n < after.rest then ⟨n, [r]⟩
  else after

end Blame

/-- A reader of `α` over rules named by `ρ`. -/
structure Reader (ρ α : Type) where
  /-- What stands at the front of a text, and the text after it. -/
  read : List Char → Option (α × List Char)
  /-- The blame once this reader has been tried on a text. -/
  blame : List Char → Blame ρ → Blame ρ

namespace Reader

variable {ρ α β : Type}

/-- Reads nothing. -/
protected def pure (a : α) : Reader ρ α where
  read s := some (a, s)
  blame _ b := b

/-- One form, then another that may depend on what the first one was. -/
protected def bind (p : Reader ρ α) (f : α → Reader ρ β) : Reader ρ β where
  read s :=
    match p.read s with
    | none => none
    | some (a, rest) => (f a).read rest
  blame s b :=
    match p.read s with
    | none => p.blame s b
    | some (a, rest) => (f a).blame rest (p.blame s b)

instance : Monad (Reader ρ) where
  pure := Reader.pure
  bind := Reader.bind

/-- The longest run of characters in `p`, which may be empty. -/
def run (p : Char → Bool) : Reader ρ (List Char) where
  read s := some (s.takeWhile p, s.dropWhile p)
  blame _ b := b

/-- The longest run of characters in `p`, which may not be empty. -/
def run1 (p : Char → Bool) : Reader ρ (List Char) where
  read s :=
    match s.takeWhile p with
    | [] => none
    | c :: cs => some (c :: cs, s.dropWhile p)
  blame _ b := b

/-- Exactly the characters of `t`. -/
def literal (t : List Char) : Reader ρ Unit where
  read s := if t.isPrefixOf s then some ((), s.drop t.length) else none
  blame _ b := b

/-- The end of the text. -/
def atEnd : Reader ρ Unit where
  read s := if s.isEmpty then some ((), []) else none
  blame _ b := b

/-- The text from here on; nothing of it is read. -/
def ahead : Reader ρ (List Char) where
  read s := some (s, s)
  blame _ b := b

/-- The first form if it matches, else the second. -/
def orElse (p q : Reader ρ α) : Reader ρ α where
  read s :=
    match p.read s with
    | some r => some r
    | none => q.read s
  blame s b :=
    match p.read s with
    | some _ => p.blame s b
    | none => q.blame s (p.blame s b)

/-- The form, or nothing where it does not match. -/
def opt (p : Reader ρ α) : Reader ρ (Option α) where
  read s :=
    match p.read s with
    | some (a, rest) => some (some a, rest)
    | none => some (none, s)
  blame := p.blame

/-- At most `n` repetitions of a form, as many as match. -/
def repeatRead (p : Reader ρ α) : Nat → List Char → List α × List Char
  | 0, s => ([], s)
  | n + 1, s =>
    match p.read s with
    | none => ([], s)
    | some (a, rest) =>
      match repeatRead p n rest with
      | (as, rest') => (a :: as, rest')

/-- The blame once at most `n` repetitions have been tried. -/
def repeatBlame (p : Reader ρ α) : Nat → List Char → Blame ρ → Blame ρ
  | 0, _, b => b
  | n + 1, s, b =>
    match p.read s with
    | none => p.blame s b
    | some (_, rest) => repeatBlame p n rest (p.blame s b)

/-- As many repetitions of a form as match. A form that reads at least one character can match no
more often than there are characters, and one more attempt fails at the end. -/
def many (p : Reader ρ α) : Reader ρ (List α) where
  read s := some (repeatRead p (s.length + 1) s)
  blame s b := repeatBlame p (s.length + 1) s b

/-- The form under a rule's name: where it fails, the rule is blamed. -/
def named (r : ρ) (p : Reader ρ α) : Reader ρ α where
  read := p.read
  blame s b :=
    match p.read s with
    | some _ => p.blame s b
    | none => (p.blame s b).charge r s.length b

/-- The whole of a text as one form, or the blame for its failure. -/
def parse (p : Reader ρ α) (s : List Char) : Except (Blame ρ) α :=
  match p.read s with
  | some (a, _) => .ok a
  | none => .error (p.blame s ⟨s.length, []⟩)

end Reader

end Grammar
end TaskTable
