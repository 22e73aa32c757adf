import TaskTable.Proofs.Recording.Common
import TaskTable.Proofs.Text.Blank
import TaskTable.Proofs.Text.Lines

/-!
# Differences of transcripts

A difference is an edit script, and a shortest one: taking its `+` lines out of the one transcript
and its `-` lines out of the other leaves the same lines, and as many as the two can have in common
(`diff_minimal`). It is empty when the transcripts have the same lines.
-/

namespace TaskTable
namespace Transcript

variable {α : Type}

/-! ## Edit scripts -/

/-- The items of two lists, walked through side by side: `es` are those that only one side has, each
where it is met, and `c` are those that both sides have. -/
inductive Aligned : (es : List (Edit α)) → (a b c : List α) → Prop
  | nil : Aligned [] [] [] []
  | both (x : α) {es : List (Edit α)} {a b c : List α} (rest : Aligned es a b c) :
      Aligned es (x :: a) (x :: b) (x :: c)
  | added (x : α) {es : List (Edit α)} {a b c : List α} (rest : Aligned es a b c) :
      Aligned (.added x :: es) (x :: a) b c
  | removed (x : α) {es : List (Edit α)} {a b c : List α} (rest : Aligned es a b c) :
      Aligned (.removed x :: es) a (x :: b) c

namespace Aligned

variable {es fs : List (Edit α)} {a b c a' b' c' : List α}

theorem append (h : Aligned es a b c) (h' : Aligned fs a' b' c') :
    Aligned (es ++ fs) (a ++ a') (b ++ b') (c ++ c') := by
  induction h with
  | nil => exact h'
  | both x _ ih => exact .both x ih
  | added x _ ih => exact .added x ih
  | removed x _ ih => exact .removed x ih

theorem left (h : Aligned es a b c) : c.Sublist a := by
  induction h with
  | nil => exact List.Sublist.refl []
  | both x _ ih => exact ih.cons_cons x
  | added x _ ih => exact ih.cons x
  | removed x _ ih => exact ih

theorem right (h : Aligned es a b c) : c.Sublist b := by
  induction h with
  | nil => exact List.Sublist.refl []
  | both x _ ih => exact ih.cons_cons x
  | added x _ ih => exact ih
  | removed x _ ih => exact ih.cons x

/-- Every item of either list is an edit, or common to both. -/
theorem count (h : Aligned es a b c) : es.length + 2 * c.length = a.length + b.length := by
  induction h with
  | nil => rfl
  | both x _ ih | added x _ ih | removed x _ ih =>
    simp only [List.length_cons]
    omega

/-- Without an edit the two lists are the same. -/
theorem eq_of_nil (h : Aligned [] a b c) : a = b := by
  generalize hes : ([] : List (Edit α)) = es at h
  induction h with
  | nil => rfl
  | both x _ ih => rw [ih hes]
  | added x _ _ => cases hes
  | removed x _ _ => cases hes

theorem same (a : List α) : Aligned [] a a a := by
  induction a with
  | nil => exact .nil
  | cons x a ih => exact .both x ih

theorem allAdded (a : List α) : Aligned (a.map .added) a [] [] := by
  induction a with
  | nil => exact .nil
  | cons x a ih => exact .added x ih

theorem allRemoved (b : List α) : Aligned (b.map .removed) [] b [] := by
  induction b with
  | nil => exact .nil
  | cons x b ih => exact .removed x ih

end Aligned

/-! ## Shortest edit scripts -/

section Shortest

variable [DecidableEq α]

/-- The edits lead from one list to the other and leave as much as possible. -/
def IsShortest (es : List (Edit α)) (a b : List α) : Prop :=
  ∃ c, Aligned es a b c ∧ commonLength a b = c.length

/-- Lists that have nothing in common differ in all their items. -/
theorem isShortest_of_disjoint {a b : List α} (h : commonLength a b = 0) :
    IsShortest (a.map .added ++ b.map .removed) a b := by
  have halign := (Aligned.allAdded a).append (Aligned.allRemoved b)
  rw [List.append_nil, List.nil_append, List.nil_append] at halign
  exact ⟨[], halign, h⟩

/-- Equal ends change nothing about a shortest script. -/
theorem IsShortest.between {es : List (Edit α)} {a b : List α} (h : IsShortest es a b)
    (p s : List α) : IsShortest es (p ++ a ++ s) (p ++ b ++ s) := by
  obtain ⟨c, halign, hlength⟩ := h
  refine ⟨p ++ c ++ s, ?_, ?_⟩
  · have hends := ((Aligned.same p).append halign).append (Aligned.same s)
    rwa [List.nil_append, List.append_nil] at hends
  · rw [commonLength_append_right, commonLength_append_left, hlength, List.length_append,
      List.length_append]

theorem isShortest_editsOfOne (x : α) (b : List α) : IsShortest (editsOfOne x b) [x] b := by
  unfold editsOfOne
  by_cases hx : x ∈ b
  · rw [if_pos hx]
    obtain ⟨b₁, b₂, -, heq, herase⟩ := List.exists_erase_eq hx
    refine ⟨[x], ?_, commonLength_singleton hx⟩
    rw [herase, heq, List.map_append]
    exact (Aligned.allRemoved b₁).append (.both x (Aligned.allRemoved b₂))
  · rw [if_neg hx]
    apply isShortest_of_disjoint (a := [x])
    apply commonLength_of_disjoint
    intro y hy hyx
    exact hx (List.mem_singleton.1 hyx ▸ hy)

/-- Divide and conquer leads to a shortest script. -/
theorem isShortest_edits (a b : List α) : IsShortest (edits a b) a b := by
  fun_induction edits a b with
  | case1 b => exact ⟨[], Aligned.allRemoved b, commonLength_nil_left b⟩
  | case2 a _ => exact ⟨[], Aligned.allAdded a, commonLength_nil_right a⟩
  | case3 x b _ => exact isShortest_editsOfOne x b
  | case4 x y rest b _ a a₁ a₂ k ih₁ ih₂ =>
    obtain ⟨c₁, halign₁, hlength₁⟩ := ih₁
    obtain ⟨c₂, halign₂, hlength₂⟩ := ih₂
    have halign := halign₁.append halign₂
    rw [List.take_append_drop, List.take_append_drop] at halign
    refine ⟨c₁ ++ c₂, halign, ?_⟩
    -- the cut was chosen so that the halves have as much in common as the whole
    have hcut := commonLength_cut a₁ a₂ b
    rw [List.take_append_drop] at hcut
    rw [List.length_append, ← hlength₁, ← hlength₂]
    exact hcut

/-! ## Common ends -/

theorem take_commonFront (a b : List α) :
    a.take (commonFront a b) = b.take (commonFront a b) := by
  fun_induction commonFront a b with
  | case1 x xs ys ih => rw [List.take_succ_cons, List.take_succ_cons, ih]
  | case2 x xs y ys hne => rfl
  | case3 a b _ => rfl

/-- What two lists share at their back, where `n` counts it. -/
theorem drop_commonBack (a b : List α) :
    a.drop (a.length - commonFront a.reverse b.reverse) =
      b.drop (b.length - commonFront a.reverse b.reverse) := by
  have htake := take_commonFront a.reverse b.reverse
  rw [List.take_reverse, List.take_reverse] at htake
  exact List.reverse_injective htake

end Shortest

/-- What is left of two lists of lines between their common ends is compared by a shortest script,
also where nothing of it is shared. -/
theorem isShortest_middle (a b : List String) :
    IsShortest (if b.any fun y => a.contains y then edits a b
      else a.map Edit.added ++ b.map Edit.removed) a b := by
  by_cases hshared : (b.any fun y => a.contains y) = true
  · rw [if_pos hshared]
    exact isShortest_edits a b
  · rw [if_neg hshared]
    apply isShortest_of_disjoint
    apply commonLength_of_disjoint
    intro y hy hya
    exact hshared (List.any_eq_true.2 ⟨y, hy, List.contains_iff_mem.2 hya⟩)

/-- The difference of two lists of lines is a shortest script between them. -/
theorem isShortest_lineEdits (a b : List String) : IsShortest (lineEdits a b) a b := by
  unfold lineEdits
  dsimp only
  have hfront := take_commonFront a b
  generalize commonFront a b = front at hfront ⊢
  have ha : a.take front ++ a.drop front = a := List.take_append_drop front a
  have hb : a.take front ++ b.drop front = b := by rw [hfront, List.take_append_drop]
  generalize a.drop front = a' at ha ⊢
  generalize b.drop front = b' at hb ⊢
  have hback := drop_commonBack a' b'
  generalize commonFront a'.reverse b'.reverse = back at hback ⊢
  have ha' : a'.take (a'.length - back) ++ a'.drop (a'.length - back) = a' :=
    List.take_append_drop _ a'
  have hb' : b'.take (b'.length - back) ++ a'.drop (a'.length - back) = b' := by
    rw [hback, List.take_append_drop]
  have hmiddle := isShortest_middle (a'.take (a'.length - back)) (b'.take (b'.length - back))
  have hwhole := hmiddle.between (a.take front) (a'.drop (a'.length - back))
  rwa [List.append_assoc, List.append_assoc, ha', hb', ha, hb] at hwhole

/-! ## Places -/

/-- The item that an edit names by its place. -/
def Edit.at? (a b : List α) : Edit Nat → Option (Edit α)
  | .added i => a[i]?.map .added
  | .removed j => b[j]?.map .removed

/-- The places in the first list that edits name. -/
def addedAt (places : List (Edit Nat)) : List Nat :=
  places.filterMap fun
    | .added i => some i
    | .removed _ => none

/-- The places in the second list that edits name. -/
def removedAt (places : List (Edit Nat)) : List Nat :=
  places.filterMap fun
    | .added _ => none
    | .removed j => some j

/-- A list without the items at some places, which are counted from `n`. -/
def without (places : List Nat) : (n : Nat) → List α → List α
  | _, [] => []
  | n, x :: xs => if n ∈ places then without places (n + 1) xs else x :: without places (n + 1) xs

/-- Places of one list, counted from `n`, in ascending order; `c` is the list without them. -/
structure Marks (places : List Nat) (n : Nat) (l c : List α) : Prop where
  ascending : places.Pairwise (· < ·)
  later : ∀ k ∈ places, n ≤ k
  rest : without places n l = c
  count : places.length + c.length = l.length

namespace Marks

variable {places : List Nat} {n : Nat} {l c : List α}

theorem nil (n : Nat) : Marks [] n ([] : List α) [] :=
  ⟨List.Pairwise.nil, by simp, rfl, rfl⟩

/-- The item at the front stays. -/
theorem keep (h : Marks places (n + 1) l c) (x : α) : Marks places n (x :: l) (x :: c) := by
  have hn : n ∉ places := by
    intro hmem
    have := h.later n hmem
    omega
  refine ⟨h.ascending, ?_, ?_, ?_⟩
  · intro k hk
    have := h.later k hk
    omega
  · rw [without, if_neg hn, h.rest]
  · have := h.count
    rw [List.length_cons, List.length_cons]
    omega

theorem without_cons {k m : Nat} (h : k < m) (l : List α) :
    without (k :: places) m l = without places m l := by
  induction l generalizing m with
  | nil => rw [without, without]
  | cons x l ih =>
    have hm : m ≠ k := by omega
    have hmem : m ∈ k :: places ↔ m ∈ places := by simp [hm]
    rw [without, without, ih (by omega)]
    simp only [hmem]

/-- The item at the front is taken out. -/
theorem drop (h : Marks places (n + 1) l c) (x : α) : Marks (n :: places) n (x :: l) c := by
  refine ⟨?_, ?_, ?_, ?_⟩
  · refine List.pairwise_cons.2 ⟨?_, h.ascending⟩
    intro k hk
    have := h.later k hk
    omega
  · intro k hk
    rcases List.mem_cons.1 hk with rfl | hk
    · exact Nat.le_refl _
    · have := h.later k hk
      omega
  · rw [without, if_pos List.mem_cons_self, without_cons (Nat.lt_succ_self n), h.rest]
  · have := h.count
    rw [List.length_cons, List.length_cons]
    omega

end Marks

/-- Every edit of a script has its place on one side. -/
theorem Aligned.exists_places {A B : List α} {es : List (Edit α)} {a b c : List α}
    (h : Aligned es a b c) {i j : Nat} (ha : A.drop i = a) (hb : B.drop j = b) :
    ∃ places : List (Edit Nat), places.map (Edit.at? A B) = es.map some ∧
      Marks (addedAt places) i a c ∧ Marks (removedAt places) j b c := by
  have hstep : ∀ {l : List α} {k : Nat} {x : α} {xs : List α}, l.drop k = x :: xs →
      l[k]? = some x ∧ l.drop (k + 1) = xs := by
    intro l k x xs hdrop
    constructor
    · rw [← List.head?_drop, hdrop]
      rfl
    · rw [← List.tail_drop, hdrop, List.tail_cons]
  induction h generalizing i j with
  | nil => exact ⟨[], rfl, Marks.nil i, Marks.nil j⟩
  | both x _ ih =>
    obtain ⟨places, hat, hleft, hright⟩ := ih (hstep ha).2 (hstep hb).2
    exact ⟨places, hat, hleft.keep x, hright.keep x⟩
  | added x _ ih =>
    obtain ⟨places, hat, hleft, hright⟩ := ih (hstep ha).2 hb
    refine ⟨.added i :: places, ?_, hleft.drop x, hright⟩
    rw [List.map_cons, List.map_cons, hat, Edit.at?, (hstep ha).1]
    rfl
  | removed x _ ih =>
    obtain ⟨places, hat, hleft, hright⟩ := ih ha (hstep hb).2
    refine ⟨.removed j :: places, ?_, hleft, hright.drop x⟩
    rw [List.map_cons, List.map_cons, hat, Edit.at?, (hstep hb).1]
    rfl

/-! ## Lines of a difference -/

theorem afterStamp_suffix {line rest : List Char} (h : afterStamp line = some rest) :
    List.IsSuffix rest line := by
  fun_induction afterStamp line with
  | case1 => cases h
  | case2 rest' =>
    cases h
    exact ⟨[']', ' '], rfl⟩
  | case3 c rest' _ ih => exact (ih h).trans (List.suffix_cons c rest')

/-- A line without its stamp is the end of the line. -/
theorem dropStamp_suffix (line : List Char) : List.IsSuffix (dropStamp line) line := by
  unfold dropStamp
  split
  · next rest =>
    cases hafter : afterStamp ('[' :: '+' :: rest) with
    | none => exact List.suffix_refl _
    | some rest' => exact afterStamp_suffix hafter
  · exact List.suffix_refl _

/-- A trimmed line without its stamp still ends in no blank. -/
theorem not_isBlank_of_last {raw : List Char} {c : Char}
    (h : (dropStamp (Text.trim raw)).getLast? = some c) : Text.isBlank c = false := by
  obtain ⟨front, hfront⟩ := dropStamp_suffix (Text.trim raw)
  have htrim : (Text.trim raw).getLast? = some c := by
    rw [← hfront, List.getLast?_append, h]
    rfl
  apply Text.stops_reverse_trim raw c
  rw [List.head?_reverse, htrim]
  rfl

/-- A line of a transcript behind a sign is a line. -/
theorem isLine_signed {t l : String} (hl : l ∈ normalize t) (sign : Char) (hsign : sign ≠ '\n') :
    Text.IsLine (sign :: ' ' :: l.toList) := by
  unfold normalize at hl
  obtain ⟨m, hm, rfl⟩ := List.mem_map.1 hl
  obtain ⟨hm, -⟩ := List.mem_filter.1 hm
  obtain ⟨raw, hraw, rfl⟩ := List.mem_map.1 hm
  rw [String.toList_ofList]
  have hfeed : '\n' ∉ dropStamp (Text.trim raw) := by
    intro hmem
    apply Text.not_mem_of_mem_lines hraw
    exact (Text.trim_sublist raw).subset ((dropStamp_suffix _).subset hmem)
  refine ⟨List.cons_ne_nil _ _, ?_, ?_⟩
  · simp [Ne.symm hsign, hfeed]
  · rw [List.getLast?_cons_cons, List.getLast?_cons]
    intro hlast
    cases hback : (dropStamp (Text.trim raw)).getLast? with
    | none =>
      rw [hback] at hlast
      revert hlast
      decide
    | some c =>
      have hblank := not_isBlank_of_last hback
      rw [hback, Option.getD_some, Option.some.injEq] at hlast
      rw [hlast] at hblank
      revert hblank
      decide

/-- An edit of a script is an item of one of the lists. -/
theorem Aligned.mem_of_edit {es : List (Edit α)} {a b c : List α} (h : Aligned es a b c) :
    ∀ e ∈ es, (∃ x ∈ a, e = .added x) ∨ ∃ x ∈ b, e = .removed x := by
  induction h with
  | nil => simp
  | both x _ ih =>
    intro e he
    rcases ih e he with ⟨y, hy, rfl⟩ | ⟨y, hy, rfl⟩
    · exact .inl ⟨y, List.mem_cons_of_mem _ hy, rfl⟩
    · exact .inr ⟨y, List.mem_cons_of_mem _ hy, rfl⟩
  | added x _ ih =>
    intro e he
    rcases List.mem_cons.1 he with rfl | he
    · exact .inl ⟨x, List.mem_cons_self, rfl⟩
    · rcases ih e he with ⟨y, hy, rfl⟩ | hb
      · exact .inl ⟨y, List.mem_cons_of_mem _ hy, rfl⟩
      · exact .inr hb
  | removed x _ ih =>
    intro e he
    rcases List.mem_cons.1 he with rfl | he
    · exact .inr ⟨x, List.mem_cons_self, rfl⟩
    · rcases ih e he with ha | ⟨y, hy, rfl⟩
      · exact .inl ha
      · exact .inr ⟨y, List.mem_cons_of_mem _ hy, rfl⟩

/-- A difference shows the edits, line by line. -/
theorem lines_diff (actual expected : String) :
    Text.lines (diff actual expected).toList =
      (lineEdits (normalize actual) (normalize expected)).map fun e => (editText e).toList := by
  obtain ⟨c, halign, -⟩ := isShortest_lineEdits (normalize actual) (normalize expected)
  unfold diff
  rw [Text.toList_intercalate_newline, List.map_map, Text.lines_unlines]
  · rfl
  · intro l hl
    obtain ⟨e, he, rfl⟩ := List.mem_map.1 hl
    rcases halign.mem_of_edit e he with ⟨x, hx, rfl⟩ | ⟨x, hx, rfl⟩
    · have hline := isLine_signed hx '+' (by decide)
      simpa [editText] using hline
    · have hline := isLine_signed hx '-' (by decide)
      simpa [editText] using hline

/-- A difference is empty if and only if both transcripts have the same lines. -/
theorem diff_eq_empty (actual expected : String) :
    diff actual expected = "" ↔ normalize actual = normalize expected := by
  obtain ⟨c, halign, hlength⟩ := isShortest_lineEdits (normalize actual) (normalize expected)
  have hlines := lines_diff actual expected
  constructor
  · intro hempty
    rw [hempty] at hlines
    have hnil : lineEdits (normalize actual) (normalize expected) = [] := by
      simpa [Text.lines] using hlines
    rw [hnil] at halign
    exact halign.eq_of_nil
  · intro hsame
    have hcount := halign.count
    -- all lines are common, so no edit is left
    have hall := commonLength_append_left (normalize expected) [] []
    rw [List.append_nil, commonLength_nil_left, Nat.add_zero] at hall
    rw [hsame, hall] at hlength
    rw [hsame] at hcount
    have hnil : lineEdits (normalize expected) (normalize expected) = [] := by
      rw [← List.length_eq_zero_iff]
      omega
    unfold diff
    rw [hsame, hnil]
    rfl

/-- The difference of two transcripts is a shortest edit script between their lines. -/
theorem diff_minimal (actual expected : String) :
    (diff actual expected = "" ↔ normalize actual = normalize expected) ∧
      ∃ places : List (Edit Nat), ∃ common : List String,
        (Text.lines (diff actual expected).toList).map (some ∘ String.ofList) =
          places.map (fun p => (p.at? (normalize actual) (normalize expected)).map editText) ∧
        (addedAt places).Pairwise (· < ·) ∧ (removedAt places).Pairwise (· < ·) ∧
        without (addedAt places) 0 (normalize actual) = common ∧
        without (removedAt places) 0 (normalize expected) = common ∧
        IsLongestCommon common (normalize actual) (normalize expected) ∧
        (addedAt places).length + (removedAt places).length + 2 * common.length =
          (normalize actual).length + (normalize expected).length := by
  refine ⟨diff_eq_empty actual expected, ?_⟩
  obtain ⟨c, halign, hlength⟩ := isShortest_lineEdits (normalize actual) (normalize expected)
  obtain ⟨places, hat, hadded, hremoved⟩ := halign.exists_places (List.drop_zero) (List.drop_zero)
  refine ⟨places, c, ?_, hadded.ascending, hremoved.ascending, hadded.rest, hremoved.rest,
    isLongestCommon_of_length halign.left halign.right hlength, ?_⟩
  · have hmap := congrArg (List.map (Option.map editText)) hat
    rw [List.map_map, List.map_map] at hmap
    rw [lines_diff, List.map_map]
    have hshow : ∀ e : Edit String, String.ofList (editText e).toList = editText e :=
      fun e => String.ofList_toList
    simpa [Function.comp_def, hshow] using hmap.symm
  · have hleft := hadded.count
    have hright := hremoved.count
    omega

end Transcript
end TaskTable
