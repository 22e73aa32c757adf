import TaskTable.Proofs.Json.Decode
import TaskTable.Table.Stored

/-!
# Tables read back

A table is read back from its stored text as it was, but for its index (`Table.ofText?_toText`), if
its numbers fit their words.
-/

namespace TaskTable

open Json (Draft)

/-- A number that fits its word is read from a field that is there. -/
theorem Json.Draft.required_nat {n bound : Nat} (h : n < bound) :
    required (toNat? bound) (some (ofJson (.nat n))) = some n := by
  rw [required, Option.bind_some]
  exact toNat?_nat h

namespace Transition

/-- Whether the numbers of a transition fit their words. -/
def isExact (t : Transition) : Bool :=
  t.wait < Number.twoPow 32 && t.max < Number.twoPow 32 && t.line < Number.twoPow 64

/-- A transition is read field by field. The fields are variables here, so that no bound on its
numbers is computed with. -/
theorem ofDraft?_fields {d : Draft} {t : Transition}
    {value target wait max exec line : Option Draft}
    (hrecord : d.toRecord? ["value", "target", "wait", "max", "exec", "line"] =
      some [value, target, wait, max, exec, line])
    (hvalue : Draft.required Draft.toString? value = some t.value)
    (htarget : Draft.required Draft.toString? target = some t.target)
    (hwait : Draft.required Draft.toWord32? wait = some t.wait)
    (hmax : Draft.required Draft.toWord32? max = some t.max)
    (hexec : Draft.required Draft.toBool? exec = some t.exec)
    (hline : Draft.required Draft.toWord64? line = some t.line) : ofDraft? d = some t := by
  rw [ofDraft?, hrecord]
  simp only [Option.bind_eq_bind, Option.bind_some, hvalue, htarget, hwait, hmax, hexec, hline]
  rfl

theorem ofDraft?_toJson {t : Transition} (h : t.isExact = true) :
    ofDraft? (Draft.ofJson t.toJson) = some t := by
  simp only [isExact, Bool.and_eq_true, decide_eq_true_eq] at h
  obtain ⟨⟨hwait, hmax⟩, hline⟩ := h
  rw [toJson]
  exact ofDraft?_fields (Draft.toRecord?_obj (by rfl) (by decide)) rfl rfl
    (Draft.required_nat hwait) (Draft.required_nat hmax) rfl (Draft.required_nat hline)

theorem isExact_toJson {t : Transition} (h : t.isExact = true) (levels : Nat) :
    t.toJson.isExact (levels + 1) = true := by
  simp only [isExact, Bool.and_eq_true, decide_eq_true_eq] at h
  obtain ⟨⟨hwait, hmax⟩, hline⟩ := h
  refine Json.isExact_obj ?_
  simp only [List.forall_mem_cons, Json.isExact_word32 hwait, Json.isExact_word32 hmax,
    Json.isExact_nat hline, true_and]
  exact ⟨rfl, rfl, rfl, by simp⟩

end Transition

namespace Block

/-- Whether the numbers of a block and of its transitions fit their words. -/
def isExact (b : Block) : Bool :=
  b.transitions.all Transition.isExact && b.line < Number.twoPow 64

theorem ofDraft?_fields {d : Draft} {b : Block}
    {state method timer transitions line : Option Draft}
    (hrecord : d.toRecord? ["state", "method", "timer", "transitions", "line"] =
      some [state, method, timer, transitions, line])
    (hstate : Draft.required Draft.toString? state = some b.state)
    (hmethod : Draft.required Draft.toString? method = some b.method)
    (htimer : Draft.required Draft.toString? timer = some b.timer)
    (htransitions : Draft.required (Draft.toList? Transition.ofDraft?) transitions =
      some b.transitions)
    (hline : Draft.required Draft.toWord64? line = some b.line) : ofDraft? d = some b := by
  rw [ofDraft?, hrecord]
  simp only [Option.bind_eq_bind, Option.bind_some, hstate, hmethod, htimer, htransitions, hline]
  rfl

theorem ofDraft?_toJson {b : Block} (h : b.isExact = true) :
    ofDraft? (Draft.ofJson b.toJson) = some b := by
  simp only [isExact, Bool.and_eq_true, List.all_eq_true, decide_eq_true_eq] at h
  obtain ⟨htransitions, hline⟩ := h
  have hlist : (Draft.ofJson (.list Transition.toJson b.transitions)).toList?
      Transition.ofDraft? = some b.transitions :=
    Draft.toList?_list fun t ht => Transition.ofDraft?_toJson (htransitions t ht)
  rw [toJson]
  exact ofDraft?_fields (Draft.toRecord?_obj (by rfl) (by decide)) rfl rfl rfl hlist
    (Draft.required_nat hline)

theorem isExact_toJson {b : Block} (h : b.isExact = true) (levels : Nat) :
    b.toJson.isExact (levels + 3) = true := by
  simp only [isExact, Bool.and_eq_true, List.all_eq_true, decide_eq_true_eq] at h
  obtain ⟨htransitions, hline⟩ := h
  have hlist : (Json.list Transition.toJson b.transitions).isExact (levels + 2) = true :=
    Json.isExact_list fun t ht => Transition.isExact_toJson (htransitions t ht) levels
  refine Json.isExact_obj ?_
  simp only [List.forall_mem_cons, hlist, Json.isExact_nat hline, true_and]
  exact ⟨rfl, rfl, rfl, by simp⟩

end Block

namespace Table

/-- Whether the numbers of all blocks fit their words. -/
def isExact (t : Table) : Bool :=
  t.blocks.all Block.isExact

theorem ofDraft?_toJson {t : Table} (h : t.isExact = true) :
    ofDraft? (Draft.ofJson t.toJson) = some t.withoutIndex := by
  simp only [isExact, List.all_eq_true] at h
  have hlist : (Draft.ofJson (.list Block.toJson t.blocks)).toList? Block.ofDraft? =
      some t.blocks := Draft.toList?_list fun b hb => Block.ofDraft?_toJson (h b hb)
  have hmap : (Draft.ofJson (.map .str t.bindings)).toMap? Draft.toString? = some t.bindings :=
    Draft.toMap?_map fun _ _ => rfl
  rw [ofDraft?, toJson, Draft.toRecord?_obj (by rfl) (by decide)]
  simp only [List.map_cons, List.map_nil, Option.bind_eq_bind, Option.bind_some, Draft.required,
    hlist, hmap]
  rfl

theorem isExact_toJson {t : Table} (h : t.isExact = true) (levels : Nat) :
    t.toJson.isExact (levels + 5) = true := by
  simp only [isExact, List.all_eq_true] at h
  have hlist : (Json.list Block.toJson t.blocks).isExact (levels + 4) = true :=
    Json.isExact_list fun b hb => Block.isExact_toJson (h b hb) levels
  have hmap : (Json.map Json.str t.bindings).isExact (levels + 4) = true :=
    Json.isExact_map fun _ _ => rfl
  refine Json.isExact_obj ?_
  simp only [List.forall_mem_cons, hlist, hmap, true_and]
  exact ⟨rfl, by simp⟩

/-- The stored text of a table is read as the table without its index. -/
theorem ofText?_toText {t : Table} (h : t.isExact = true) :
    ofText? t.toText = some t.withoutIndex := by
  obtain ⟨hwhole, hlevels⟩ := (Json.isExact_iff 127 _).1 (isExact_toJson h 122)
  rw [ofText?, toText, Draft.ofText?_toText hwhole, Option.bind_some,
    Draft.upTo_of_depth_le 127 _ hlevels, ofDraft?_toJson h]

end Table
end TaskTable
