import Mathlib.Data.List.Forall2
import Mathlib.Data.List.TakeWhile
import TaskTable.Proofs.Text.Plain

/-!
# The layout of lines

What a line says is what is left of it once its comment and the blanks at its ends are off
(`content`). Blanks around a line and a comment behind it leave that alone if every quote that the
line opens is closed (`Balanced`): otherwise they would run on in the quotes.
-/

namespace TaskTable
namespace Text

/-- What a line says, without its comment and the blanks at its ends. -/
def content (l : List Char) : List Char :=
  trim (stripComment l)

/-! ## Balanced texts -/

/-- A text that begins no comment and closes every quote that it opens, so that a comment behind it
is one. -/
def Balanced (w : List Char) : Prop :=
  ∀ rest, stripComment (w ++ rest) = w ++ stripComment rest

theorem Balanced.append {w w' : List Char} (h : Balanced w) (h' : Balanced w') :
    Balanced (w ++ w') := by
  intro rest
  rw [List.append_assoc, h, h', List.append_assoc]

theorem balanced_of_ordinary {w : List Char} (h : ∀ c ∈ w, IsOrdinary c) : Balanced w :=
  stripComment_append h

theorem balanced_of_inert {w : List Char} (h : Inert w) : Balanced w :=
  balanced_of_ordinary fun c hc => (h c hc).1

theorem balanced_nil : Balanced [] :=
  fun _ => rfl

theorem Balanced.cons {w : List Char} {c : Char} (hc : IsOrdinary c) (h : Balanced w) :
    Balanced (c :: w) := by
  have hone : Balanced [c] := balanced_of_ordinary fun d hd => List.mem_singleton.1 hd ▸ hc
  exact hone.append h

/-- A text between two quotes of a kind that it does not hold is balanced, whatever it holds. -/
theorem balanced_quoted {q : Char} {v : List Char} (hq : q = '\'' ∨ q = '"') (hv : q ∉ v) :
    Balanced (q :: (v ++ [q])) := by
  intro rest
  have hhash : q ≠ '#' := by rcases hq with rfl | rfl <;> decide
  rw [List.cons_append, List.append_assoc, List.singleton_append, stripComment, stripCommentFrom,
    if_neg hhash, if_pos hq, stripCommentFrom_some hv, List.cons_append, List.append_assoc,
    List.singleton_append]

theorem isOrdinary_of_isBlank {c : Char} (h : isBlank c = true) : IsOrdinary c := by
  refine ⟨?_, ?_, ?_⟩ <;> rintro rfl <;> revert h <;> decide

theorem balanced_of_blank {w : List Char} (h : ∀ c ∈ w, isBlank c = true) : Balanced w :=
  balanced_of_ordinary fun c hc => isOrdinary_of_isBlank (h c hc)

/-! ## Blanks at the ends -/

/-- A text is its trimmed form between two runs of blanks. -/
theorem exists_trim_eq (s : List Char) :
    ∃ before after, (∀ c ∈ before, isBlank c = true) ∧ (∀ c ∈ after, isBlank c = true) ∧
      s = before ++ (trim s ++ after) := by
  have hfront : s = s.takeWhile isBlank ++ trimStart s := List.takeWhile_append_dropWhile.symm
  have hback : trimStart s =
      trim s ++ ((trimStart s).reverse.takeWhile isBlank).reverse := by
    unfold trim trimEnd
    rw [← List.reverse_append, List.takeWhile_append_dropWhile, List.reverse_reverse]
  refine ⟨s.takeWhile isBlank, ((trimStart s).reverse.takeWhile isBlank).reverse, ?_, ?_, ?_⟩
  · exact fun c hc => List.mem_takeWhile_imp hc
  · exact fun c hc => List.mem_takeWhile_imp (List.mem_reverse.1 hc)
  · rw [← hback]
    exact hfront

/-- A text is balanced if it is once it is trimmed. -/
theorem balanced_of_trim {s : List Char} (h : Balanced (trim s)) : Balanced s := by
  obtain ⟨before, after, hbefore, hafter, heq⟩ := exists_trim_eq s
  rw [heq]
  exact (balanced_of_blank hbefore).append (h.append (balanced_of_blank hafter))

theorem trimEnd_append_blank (s : List Char) {after : List Char}
    (h : ∀ c ∈ after, isBlank c = true) : trimEnd (s ++ after) = trimEnd s := by
  unfold trimEnd
  rw [List.reverse_append,
    List.dropWhile_append_of_pos fun c hc => h c (List.mem_reverse.1 hc)]

theorem trimStart_blank_append {before : List Char} (h : ∀ c ∈ before, isBlank c = true)
    (s : List Char) : trimStart (before ++ s) = trimStart s :=
  List.dropWhile_append_of_pos h

/-- Blanks at the ends of a text are trimmed off. -/
theorem trim_blank_append {before after : List Char} (hbefore : ∀ c ∈ before, isBlank c = true)
    (s : List Char) (hafter : ∀ c ∈ after, isBlank c = true) :
    trim (before ++ (s ++ after)) = trim s := by
  unfold trim
  rw [trimStart_blank_append hbefore]
  by_cases hs : ∀ c ∈ s, isBlank c = true
  · -- nothing but blanks: there is no first character that the front would stop at
    have hnil : trimStart s = [] := List.dropWhile_eq_nil_iff.2 hs
    have hall : trimStart (s ++ after) = [] :=
      List.dropWhile_eq_nil_iff.2 (List.forall_mem_append.2 ⟨hs, hafter⟩)
    rw [hnil, hall]
  · have hfront : trimStart (s ++ after) = trimStart s ++ after := by
      unfold trimStart
      rw [List.dropWhile_append, if_neg]
      rwa [List.isEmpty_iff, List.dropWhile_eq_nil_iff]
    rw [hfront, trimEnd_append_blank _ hafter]

/-! ## Dressed lines -/

/-- A comment, or nothing. -/
def IsRemark (s : List Char) : Prop :=
  s = [] ∨ ∃ text, s = '#' :: text

theorem stripComment_remark {s : List Char} (h : IsRemark s) : stripComment s = [] := by
  rcases h with rfl | ⟨text, rfl⟩
  · rfl
  · rw [stripComment, stripCommentFrom, if_pos rfl]

/-- What is cut off a line is its comment, whatever quote is open at its start. -/
theorem exists_stripCommentFrom_append (q : Option Char) (l : List Char) :
    ∃ remark, IsRemark remark ∧ l = stripCommentFrom q l ++ remark := by
  fun_induction stripCommentFrom q l with
  | case1 => exact ⟨[], .inl rfl, rfl⟩
  | case2 cs => exact ⟨'#' :: cs, .inr ⟨cs, rfl⟩, rfl⟩
  | case3 c cs hhash hquote ih | case4 c cs hhash hquote ih | case5 cs q ih
  | case6 q c cs hq ih =>
    obtain ⟨remark, hremark, heq⟩ := ih
    exact ⟨remark, hremark, by rw [List.cons_append, ← heq]⟩

/-- A line with blanks put around it and perhaps a comment put behind it. -/
def Dressed (l l' : List Char) : Prop :=
  ∃ before after remark, (∀ c ∈ before, isBlank c = true) ∧ (∀ c ∈ after, isBlank c = true) ∧
    IsRemark remark ∧ l' = before ++ (l ++ (after ++ remark))

theorem dressed_refl (l : List Char) : Dressed l l :=
  ⟨[], [], [], by simp, by simp, .inl rfl, by simp⟩

/-- A line says the same with blanks around it and a comment behind it. -/
theorem Dressed.content_eq {l l' : List Char} (h : Dressed l l') (hl : Balanced (stripComment l)) :
    content l' = content l := by
  obtain ⟨before, after, remark, hbefore, hafter, hremark, rfl⟩ := h
  obtain ⟨old, hold, heq⟩ := exists_stripCommentFrom_append none l
  have hrest : stripComment (l ++ (after ++ remark)) =
      stripComment l ++ stripComment (old ++ (after ++ remark)) := by
    conv_lhs => rw [heq]
    rw [List.append_assoc]
    exact hl _
  unfold content
  rw [balanced_of_blank hbefore, hrest]
  rcases hold with rfl | ⟨text, rfl⟩
  · rw [List.nil_append, balanced_of_blank hafter, stripComment_remark hremark, List.append_nil,
      trim_blank_append hbefore _ hafter]
  · -- the line has a comment already, which the new blanks and the new comment become part of
    have hnone : ∀ c ∈ ([] : List Char), isBlank c = true := by simp
    rw [List.cons_append, stripComment_remark (.inr ⟨_, rfl⟩)]
    exact trim_blank_append hbefore (stripComment l) hnone

/-- A line of blanks and perhaps a comment says nothing. -/
theorem Dressed.content_eq_nil {l : List Char} (h : Dressed [] l) : content l = [] :=
  h.content_eq balanced_nil

/-! ## Line ends -/

/-- A text with a carriage return put in front of each line feed. -/
def withReturns (s : List Char) : List Char :=
  s.flatMap fun c => if c = '\n' then ['\r', '\n'] else [c]

theorem withReturns_feed (s : List Char) :
    withReturns ('\n' :: s) = '\r' :: '\n' :: withReturns s :=
  rfl

theorem withReturns_cons {c : Char} (h : c ≠ '\n') (s : List Char) :
    withReturns (c :: s) = c :: withReturns s := by
  unfold withReturns
  rw [List.flatMap_cons, if_neg h, List.singleton_append]

theorem withReturns_ne_feed (s s' : List Char) : withReturns s ≠ '\n' :: s' := by
  cases s with
  | nil => nofun
  | cons c cs =>
    by_cases hc : c = '\n'
    · rw [hc, withReturns_feed]
      intro h
      injection h with hhead
      revert hhead
      decide
    · rw [withReturns_cons hc]
      intro h
      injection h with hhead
      exact hc hhead

/-- A line end has one carriage return more, so a line keeps the one that was there before. -/
theorem lines_withReturns (s : List Char) :
    List.Forall₂ (fun l l' => l' = l ∨ l' = l ++ ['\r']) (lines s) (lines (withReturns s)) := by
  fun_induction lines s with
  | case1 => exact .nil
  | case2 cs ih => exact .cons (.inl rfl) ih
  | case3 cs ih =>
    have hlines : lines (withReturns ('\r' :: '\n' :: cs)) = ['\r'] :: lines (withReturns cs) := rfl
    rw [hlines]
    exact .cons (.inr rfl) ih
  | case4 c cs hfeed _ heq ih =>
    have hlines := lines_cons (c := c) (s := withReturns cs) hfeed
      fun s' _ => withReturns_ne_feed cs s'
    rw [heq, List.forall₂_nil_left_iff] at ih
    rw [withReturns_cons hfeed, hlines, ih]
    exact .cons (.inl rfl) .nil
  | case5 c cs hfeed _ l ls heq ih =>
    have hlines := lines_cons (c := c) (s := withReturns cs) hfeed
      fun s' _ => withReturns_ne_feed cs s'
    rw [heq] at ih
    obtain ⟨l', ls', hl, hls, heq'⟩ := List.forall₂_cons_left_iff.1 ih
    rw [withReturns_cons hfeed, hlines, heq']
    refine .cons ?_ hls
    rcases hl with rfl | rfl
    · exact .inl rfl
    · exact .inr rfl

/-- A carriage return behind a line is a blank like any other. -/
theorem dressed_withReturns (s : List Char) :
    List.Forall₂ Dressed (lines s) (lines (withReturns s)) := by
  refine (lines_withReturns s).imp fun l l' h => ?_
  rcases h with rfl | rfl
  · exact dressed_refl _
  · exact ⟨[], ['\r'], [], by simp, List.all_eq_true.1 rfl, .inl rfl, rfl⟩

/-! ## Lines put in between -/

/-- Lines with groups of others put in: one group above each line as long as there are groups, and
what is left of them below the last line. -/
def interleave : List (List (List Char)) → List (List Char) → List (List Char)
  | groups, [] => groups.flatten
  | [], l :: ls => l :: ls
  | g :: groups, l :: ls => g ++ l :: interleave groups ls

/-- How many lines the first groups have together. -/
def linesAbove (groups : List (List (List Char))) (n : Nat) : Nat :=
  (groups.take n).flatten.length

@[simp] theorem linesAbove_nil (n : Nat) : linesAbove [] n = 0 := by
  simp [linesAbove]

@[simp] theorem linesAbove_zero (groups : List (List (List Char))) : linesAbove groups 0 = 0 := by
  simp [linesAbove]

@[simp] theorem linesAbove_cons (g : List (List Char)) (groups : List (List (List Char)))
    (n : Nat) : linesAbove (g :: groups) (n + 1) = g.length + linesAbove groups n := by
  simp [linesAbove]

end Text
end TaskTable
