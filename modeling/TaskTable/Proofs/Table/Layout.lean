import TaskTable.Proofs.Grammar.Quotes
import TaskTable.Proofs.Table.Renumber

/-!
# The layout of tables

A table is made of what its lines say and of their numbers (`contents`). Blanks around lines,
comments behind them and carriage returns at their ends change neither; lines that say nothing
change the numbers of those below.
-/

namespace TaskTable
namespace Table

open Text (Balanced Dressed balanced_nil balanced_of_trim interleave linesAbove withReturns)

/-! ## What lines say -/

/-- What the lines of a text say, with their numbers. Lines that say nothing are left out. -/
def contents : List (List Char) → List (Nat × List Char)
  | [] => []
  | l :: ls =>
    let below := (contents ls).map fun e => (e.1 + 1, e.2)
    if Text.content l = [] then below else (1, Text.content l) :: below

theorem contents_cons_of_nil {l : List Char} (h : Text.content l = []) (ls : List (List Char)) :
    contents (l :: ls) = (contents ls).map fun e => (e.1 + 1, e.2) :=
  if_pos h

/-- Lines that are counted from a later number say the same. -/
theorem filterMap_zipIdx_eq (raw : List (List Char)) (k : Nat) :
    (raw.zipIdx k).filterMap (fun e =>
      if (Text.content e.1).isEmpty then none else some (e.2 + 1, Text.content e.1)) =
      (contents raw).map fun e => (e.1 + k, e.2) := by
  induction raw generalizing k with
  | nil => rfl
  | cons l ls ih =>
    have hshift : (contents ls).map (fun e => (e.1 + (k + 1), e.2)) =
        ((contents ls).map fun e => (e.1 + 1, e.2)).map fun e => (e.1 + k, e.2) := by
      rw [List.map_map]
      refine List.map_congr_left fun e _ => ?_
      simp [Nat.add_assoc, Nat.add_comm 1 k]
    unfold contents
    rw [List.zipIdx_cons, List.filterMap_cons, ih, hshift]
    by_cases hl : Text.content l = []
    · simp [hl]
    · simp [hl, Nat.add_comm]

/-- The lines that count are those that say something. -/
theorem sourceLines_contents (source : List Char) :
    (sourceLines source).map (fun l => (l.number, l.text)) = contents (Text.lines source) := by
  have hpairs : (sourceLines source).map (fun l => (l.number, l.text)) =
      (Text.lines source).zipIdx.filterMap fun e =>
        if (Text.content e.1).isEmpty then none else some (e.2 + 1, Text.content e.1) := by
    rw [sourceLines, List.map_filterMap]
    congr 1
    funext e
    show Option.map _ (if (Text.content e.1).isEmpty then none else _) = _
    split <;> rfl
  rw [hpairs, filterMap_zipIdx_eq]
  exact List.map_id'' (fun _ => rfl) _

/-- Lines that say the same one by one say the same together. -/
theorem contents_congr {raw raw' : List (List Char)}
    (h : List.Forall₂ (fun l l' => Text.content l' = Text.content l) raw raw') :
    contents raw' = contents raw := by
  induction h with
  | nil => rfl
  | cons hl _ ih =>
    unfold contents
    rw [hl, ih]

/-- Lines that say nothing move those below them. -/
theorem contents_append {g : List (List Char)} (hg : ∀ l ∈ g, Text.content l = [])
    (ls : List (List Char)) :
    contents (g ++ ls) = (contents ls).map fun e => (e.1 + g.length, e.2) := by
  induction g with
  | nil => simp
  | cons l g ih =>
    obtain ⟨hl, hg⟩ := List.forall_mem_cons.1 hg
    rw [List.cons_append, contents_cons_of_nil hl, ih hg, List.map_map]
    rfl

/-- Lines keep what they say among others that say nothing, and each moves by the lines that are put
in above it. -/
theorem contents_interleave {groups : List (List (List Char))}
    (h : ∀ g ∈ groups, ∀ l ∈ g, Text.content l = []) (ls : List (List Char)) :
    contents (interleave groups ls) =
      (contents ls).map fun e => (e.1 + linesAbove groups e.1, e.2) := by
  fun_induction interleave groups ls with
  | case1 groups =>
    have hall : ∀ l ∈ groups.flatten, Text.content l = [] := by
      intro l hl
      obtain ⟨g, hg, hmem⟩ := List.mem_flatten.1 hl
      exact h g hg l hmem
    have hnone := contents_append hall []
    rwa [List.append_nil] at hnone
  | case2 l ls => simp
  | case3 g groups l ls ih =>
    obtain ⟨hg, hgroups⟩ := List.forall_mem_cons.1 h
    have hbelow : ((contents (interleave groups ls)).map fun e => (e.1 + 1, e.2)).map
          (fun e => (e.1 + g.length, e.2)) =
        ((contents ls).map fun e => (e.1 + 1, e.2)).map
          fun e => (e.1 + linesAbove (g :: groups) e.1, e.2) := by
      rw [ih hgroups, List.map_map, List.map_map, List.map_map]
      refine List.map_congr_left fun e _ => ?_
      simp only [Function.comp_apply, Text.linesAbove_cons, Prod.mk.injEq, and_true]
      omega
    rw [contents_append hg]
    unfold contents
    by_cases hl : Text.content l = []
    · simp only [hl, if_true]
      exact hbelow
    · have hfirst : linesAbove (g :: groups) 1 = g.length := by
        rw [Text.linesAbove_cons, Text.linesAbove_zero, Nat.add_zero]
      simp only [hl, if_false, List.map_cons, hbelow, hfirst]

/-! ## Accepted lines -/

/-- What a line says is the text of a line that counts. -/
theorem exists_sourceLine {source l : List Char} (hl : l ∈ Text.lines source)
    (hcontent : Text.content l ≠ []) : ∃ s ∈ sourceLines source, s.text = Text.content l := by
  obtain ⟨i, hi, rfl⟩ := List.getElem_of_mem hl
  have hplace : ((Text.lines source)[i], i) ∈ (Text.lines source).zipIdx :=
    List.mk_mem_zipIdx_iff_getElem?.2 (List.getElem?_eq_getElem hi)
  let s : SourceLine :=
    ⟨i + 1, Text.indent (Text.stripComment (Text.lines source)[i]),
      Text.content (Text.lines source)[i]⟩
  exact ⟨s, List.mem_filterMap.2 ⟨_, hplace, if_neg (mt List.isEmpty_iff.1 hcontent)⟩, rfl⟩

/-- Every line that counts is that of a form. -/
theorem IsTable.exists_tells {source : String} {ss : List Section} (h : IsTable source ss)
    {l : SourceLine} (hl : l ∈ sourceLines source.toList) : ∃ f ∈ formsOf ss none, Tells l f := by
  obtain ⟨i, hi, rfl⟩ := List.getElem_of_mem hl
  have hi' : i < (formsOf ss none).length := h.describes.length_eq ▸ hi
  exact ⟨_, List.getElem_mem hi', h.describes.get hi hi'⟩

/-- Every line that a table is compiled from closes its quotes. -/
theorem balanced_of_compile {source : String} {t : Table} (h : compile source = .ok t)
    {l : List Char} (hl : l ∈ Text.lines source.toList) : Balanced (Text.stripComment l) := by
  apply balanced_of_trim
  show Balanced (Text.content l)
  by_cases hempty : Text.content l = []
  · rw [hempty]
    exact balanced_nil
  · obtain ⟨ss, htable⟩ := exists_isTable h
    obtain ⟨s, hs, htext⟩ := exists_sourceLine hl hempty
    obtain ⟨f, -, -, hspells⟩ := htable.exists_tells hs
    rw [← htext]
    exact hspells.balanced

/-! ## Layout -/

/-- A text with the same contents is compiled to the same table. -/
theorem compile_of_contents {source source' : String} {t : Table} {f : Nat → Nat}
    (hcontents : contents (Text.lines source'.toList) =
      (contents (Text.lines source.toList)).map fun e => (f e.1, e.2))
    (h : compile source = .ok t) :
    compile source' = .ok { t.renumber f with sourceHash := Digest.sha256 source' } := by
  refine compile_of_renumbered ?_ h
  rw [sourceLines_contents, hcontents, ← sourceLines_contents, List.map_map]
  rfl

/-- Blanks around lines and comments behind them change nothing in a table but its digest. -/
theorem compile_of_dressed {source source' : String} {t : Table} (h : compile source = .ok t)
    (hlines : List.Forall₂ Dressed (Text.lines source.toList) (Text.lines source'.toList)) :
    compile source' = .ok { t with sourceHash := Digest.sha256 source' } := by
  have hsame : contents (Text.lines source'.toList) = contents (Text.lines source.toList) := by
    refine contents_congr (((List.forall₂_and_left _ _).2 ⟨fun l hl => hl, hlines⟩).imp ?_)
    rintro l l' ⟨hl, hdressed⟩
    exact hdressed.content_eq (balanced_of_compile h hl)
  have hcompile := compile_of_contents (f := id) (hsame.trans (List.map_id _).symm) h
  rwa [renumber_eq_self (f := id) fun _ => rfl] at hcompile

/-- What a table describes does not depend on its layout: blanks around lines, comments behind them
and carriage returns in front of line feeds change nothing but the digest, and lines of blanks or
comments that are put in move those below them. -/
theorem compile_layout {source : String} {t : Table} (h : compile source = .ok t) :
    (∀ source' : String,
      List.Forall₂ Dressed (Text.lines source.toList) (Text.lines source'.toList) →
        compile source' = .ok { t with sourceHash := Digest.sha256 source' }) ∧
      (∀ source' : String, source'.toList = withReturns source.toList →
        compile source' = .ok { t with sourceHash := Digest.sha256 source' }) ∧
      ∀ (source' : String) (groups : List (List (List Char))),
        (∀ g ∈ groups, ∀ l ∈ g, Dressed [] l) →
          Text.lines source'.toList = interleave groups (Text.lines source.toList) →
            compile source' =
              .ok { t.renumber fun n => n + linesAbove groups n with
                sourceHash := Digest.sha256 source' } := by
  refine ⟨fun source' => compile_of_dressed h, fun source' hsource => ?_,
    fun source' groups hgroups hlines => ?_⟩
  · apply compile_of_dressed h
    rw [hsource]
    exact Text.dressed_withReturns _
  · apply compile_of_contents _ h
    rw [hlines]
    exact contents_interleave (fun g hg l hl => (hgroups g hg l hl).content_eq_nil) _

/-- A table whose only value holds a hash and a quote. -/
def sharpSource : String :=
  "go \x7b\n '#\"' finish\n\x7d\n"

/-- The table of `sharpSource`. -/
def sharpTable : Table where
  blocks :=
    [{ state := "go"
       transitions := [{ value := "#\"", target := "finish", line := 2 }]
       line := 1 }]
  index := .ofList [("go", 0)]
  sourceHash := Digest.sha256 sharpSource

theorem compile_sharpSource : compile sharpSource = .ok sharpTable :=
  compile_of_foldlM (u := { table := { sharpTable with sourceHash := "" } }) rfl rfl

/-- It is the same table with comments that open quotes, and with other line ends; blank and comment
lines move it. -/
theorem compile_layout_sharpSource :
    compile "\tgo \x7b# it's \x7b\n '#\"' finish \t# \"\n\x7d\n" =
        .ok { sharpTable with
          sourceHash := Digest.sha256 "\tgo \x7b# it's \x7b\n '#\"' finish \t# \"\n\x7d\n" } ∧
      compile "go \x7b\r\n '#\"' finish\r\n\x7d\r\n" =
        .ok { sharpTable with
          sourceHash := Digest.sha256 "go \x7b\r\n '#\"' finish\r\n\x7d\r\n" } ∧
      compile "# '\ngo \x7b\n\n \t\n '#\"' finish\n\x7d\n" =
        .ok { sharpTable.renumber
            fun n => n + linesAbove [["# '".toList], [[], " \t".toList]] n with
          sourceHash := Digest.sha256 "# '\ngo \x7b\n\n \t\n '#\"' finish\n\x7d\n" } := by
  obtain ⟨hdressed, hreturns, hinserted⟩ := compile_layout compile_sharpSource
  refine ⟨hdressed _ ?_, hreturns _ rfl, hinserted _ _ ?_ rfl⟩
  · have htab : ∀ c ∈ ['\t'], Text.isBlank c = true := List.all_eq_true.1 rfl
    have hblank : ∀ c ∈ " \t".toList, Text.isBlank c = true := List.all_eq_true.1 rfl
    exact .cons ⟨['\t'], [], "# it's \x7b".toList, htab, by simp, .inr ⟨_, rfl⟩, rfl⟩ <|
      .cons ⟨[], " \t".toList, "# \"".toList, by simp, hblank, .inr ⟨_, rfl⟩, rfl⟩ <|
      .cons (Text.dressed_refl _) .nil
  · have hremark : Dressed [] "# '".toList :=
      ⟨[], [], "# '".toList, by simp, by simp, .inr ⟨_, rfl⟩, rfl⟩
    have hblank : Dressed [] " \t".toList :=
      ⟨" \t".toList, [], [], List.all_eq_true.1 rfl, by simp, .inl rfl, rfl⟩
    simpa using ⟨hremark, Text.dressed_refl _, hblank⟩

end Table
end TaskTable
