import TaskTable.Proofs.Migration.Hooks
import TaskTable.Proofs.Number.Digits

/-!
# Which hooks share a name

The name of a hook is that of its component with a capital in front and the version behind, and
nothing stands between the two. So two components share hooks where only the case of their first
letters tells them apart, and where the name of one is that of the other with a number behind it.
Components for which it is neither are `Apart`. A migration calls each hook of theirs at most once,
and never one that is there for another component or version.
-/

namespace TaskTable
namespace Migration

open Text (capitalize)

/-! ## Names that are the same -/

/-- The component of a hook goes on with digits that the version of another hook begins with. -/
def Hook.Overlaps (k l : Hook) : Prop :=
  ∃ n, 0 < n ∧ capitalize k.component = capitalize l.component ++ toString n ∧
    toString l.version = toString n ++ toString k.version

/-- With capitals in front, the names of two components are not the same, and neither is the other
with a number behind it. -/
structure Apart (c d : String) : Prop where
  capitals : capitalize c ≠ capitalize d
  left : ∀ n, 0 < n → capitalize c ≠ capitalize d ++ toString n
  right : ∀ n, 0 < n → capitalize d ≠ capitalize c ++ toString n

theorem toList_toString (n : Nat) : (toString n).toList = Number.digits n := by
  rw [Nat.toString_eq_repr, Nat.toList_repr, Number.digits]

theorem toList_hookName (component : String) (version : Nat) :
    (hookName component version).toList =
      "update".toList ++ ((capitalize component).toList ++ Number.digits version) := by
  rw [hookName, String.toList_append, String.toList_append, toList_toString, List.append_assoc]

theorem eq_append_toString {s s' : String} {n : Nat} :
    s = s' ++ toString n ↔ s.toList = s'.toList ++ Number.digits n := by
  rw [← String.toList_inj, String.toList_append, toList_toString]

/-- Hooks share a name where components with the same capitals come to the same version, and where
a component goes on with the digits that the version of the other one begins with. -/
theorem hook_name_eq_iff {k l : Hook} :
    k.name = l.name ↔
      (capitalize k.component = capitalize l.component ∧ k.version = l.version) ∨
        l.Overlaps k ∨ k.Overlaps l := by
  rw [Hook.name, Hook.name, ← String.toList_inj, toList_hookName, toList_hookName,
    List.append_right_inj, Number.append_digits_eq_iff, String.toList_inj]
  simp only [Hook.Overlaps, eq_append_toString, toList_toString]

/-- No version of a component shares its hook with a version of one that it is apart from. -/
theorem Apart.hookName_ne {c d : String} (hapart : Apart c d) (v w : Nat) :
    hookName c v ≠ hookName d w := by
  intro hname
  rcases (hook_name_eq_iff (k := ⟨c, v⟩) (l := ⟨d, w⟩)).1 hname with
    ⟨heq, -⟩ | ⟨n, hn, heq, -⟩ | ⟨n, hn, heq, -⟩
  · exact hapart.capitals heq
  · exact hapart.right n hn heq
  · exact hapart.left n hn heq

/-- Components are apart exactly if no version of the one shares its hook with a version of the
other. -/
theorem apart_iff {c d : String} :
    Apart c d ↔ ∀ v w, 0 < v → 0 < w → hookName c v ≠ hookName d w := by
  -- where a number is all that the names differ in, it can be the front of a version
  have hshared : ∀ {c d : String} {n : Nat}, 0 < n → capitalize c = capitalize d ++ toString n →
      ∃ v, 0 < v ∧ hookName c 1 = hookName d v := by
    intro c d n hn hc
    refine ⟨n * Number.tenPow (Number.digits 1).length + 1, by omega, ?_⟩
    rw [← String.toList_inj, toList_hookName, toList_hookName, eq_append_toString.1 hc,
      List.append_assoc, Number.digits_append hn]
  refine ⟨fun hapart v w _ _ => hapart.hookName_ne v w, fun h => ?_⟩
  refine ⟨fun heq => ?_, fun n hn heq => ?_, fun n hn heq => ?_⟩
  · exact h 1 1 Nat.one_pos Nat.one_pos (by rw [hookName, hookName, heq])
  · obtain ⟨v, hv, hname⟩ := hshared hn heq
    exact h 1 v Nat.one_pos hv hname
  · obtain ⟨v, hv, hname⟩ := hshared hn heq
    exact h v 1 hv Nat.one_pos hname.symm

/-! ## Plain names -/

/-- A name begins with a small Latin letter and does not end in a digit. -/
def isPlain (component : String) : Bool :=
  component.toList.head?.any Char.isLower && !component.toList.getLast?.any Char.isDigit

/-- The capital of a small Latin letter. -/
theorem capital_of_isLower {c : Char} (h : c.isLower = true) :
    Text.capital c = [Char.ofNat (c.toNat - 32)] ∧ (Char.ofNat (c.toNat - 32)).isDigit = false ∧
      (Char.ofNat (c.toNat - 32)).toNat + 32 = c.toNat := by
  have hall : ∀ n < 123, 97 ≤ n →
      Text.capital (Char.ofNat n) = [Char.ofNat (n - 32)] ∧ (Char.ofNat (n - 32)).isDigit = false ∧
        (Char.ofNat (n - 32)).toNat + 32 = n := by decide +kernel
  have hrange : 97 ≤ c.toNat ∧ c.toNat < 123 := by
    have hbounds : (decide (97 ≤ c.val) && decide (c.val ≤ 122)) = true := h
    rw [Bool.and_eq_true, decide_eq_true_eq, decide_eq_true_eq] at hbounds
    exact ⟨UInt32.le_iff_toNat_le.1 hbounds.1,
      Nat.lt_succ_of_le (UInt32.le_iff_toNat_le.1 hbounds.2)⟩
  have hc := hall c.toNat hrange.2 hrange.1
  rwa [Char.ofNat_toNat] at hc

/-- With a capital in front, a plain name still does not end in a digit. -/
theorem toList_capitalize_of_isPlain {c : String} (h : isPlain c = true) :
    ∃ a as, c.toList = a :: as ∧ a.isLower = true ∧
      (capitalize c).toList = Char.ofNat (a.toNat - 32) :: as ∧
        ∀ x ∈ (capitalize c).toList.getLast?, x.isDigit = false := by
  rw [isPlain, Bool.and_eq_true, Bool.not_eq_true'] at h
  obtain ⟨hfirst, hlast⟩ := h
  cases hc : c.toList with
  | nil =>
    rw [hc] at hfirst
    cases hfirst
  | cons a as =>
    rw [hc] at hfirst hlast
    have ha : a.isLower = true := hfirst
    obtain ⟨hcapital, hdigit, -⟩ := capital_of_isLower ha
    have hcapitalize : (capitalize c).toList = Char.ofNat (a.toNat - 32) :: as := by
      rw [capitalize, hc]
      dsimp only
      rw [String.toList_ofList, hcapital]
      rfl
    refine ⟨a, as, rfl, ha, hcapitalize, fun x hx => ?_⟩
    rw [hcapitalize] at hx
    cases as with
    | nil =>
      cases hx
      exact hdigit
    | cons b bs =>
      -- the capital is not the last character, which stays
      rw [List.getLast?_cons_cons] at hlast hx
      rw [Option.mem_def.1 hx] at hlast
      exact hlast

/-- A text with a number behind it ends in a digit. -/
theorem exists_digit_of_eq_append {s s' : String} {n : Nat} (h : s = s' ++ toString n) :
    ∃ x ∈ s.toList.getLast?, x.isDigit = true := by
  have hne := Number.digits_ne_nil n
  refine ⟨(Number.digits n).getLast hne, ?_, Number.isDigit_of_mem_digits (List.getLast_mem hne)⟩
  rw [eq_append_toString.1 h, List.getLast?_append_of_ne_nil _ hne,
    List.getLast?_eq_some_getLast hne]
  rfl

/-- Plain names that differ are apart. -/
theorem apart_of_isPlain {c d : String} (hc : isPlain c = true) (hd : isPlain d = true)
    (hne : c ≠ d) : Apart c d := by
  obtain ⟨a, as, hcs, ha, hccapitals, hclast⟩ := toList_capitalize_of_isPlain hc
  obtain ⟨b, bs, hds, hb, hdcapitals, hdlast⟩ := toList_capitalize_of_isPlain hd
  have hnumber : ∀ {s s' : String} {n : Nat}, (∀ x ∈ s.toList.getLast?, x.isDigit = false) →
      s ≠ s' ++ toString n := by
    intro s s' n hlast heq
    obtain ⟨x, hx, hdigit⟩ := exists_digit_of_eq_append heq
    exact Bool.false_ne_true ((hlast x hx).symm.trans hdigit)
  refine ⟨fun heq => hne ?_, fun n _ => hnumber hclast, fun n _ => hnumber hdlast⟩
  rw [← String.toList_inj, hccapitals, hdcapitals] at heq
  obtain ⟨hcapital, hrest⟩ := List.cons.inj heq
  have hcode := congrArg Char.toNat hcapital
  have hacode := (capital_of_isLower ha).2.2
  have hbcode := (capital_of_isLower hb).2.2
  have hfirst : a = b := Char.toNat_inj.1 (by omega)
  rw [← String.toList_inj, hcs, hds, hfirst, hrest]

/-! ## Hooks that a migration calls -/

theorem hookName_injective (component : String) : Function.Injective (hookName component) := by
  intro v w h
  rw [← String.toList_inj, toList_hookName, toList_hookName] at h
  exact Number.digits_injective (List.append_cancel_left (List.append_cancel_left h))

/-- Among components that are apart, a name belongs to one hook. -/
theorem hook_eq_of_name {components : List String}
    (hapart : ∀ c ∈ components, ∀ d ∈ components, c ≠ d → Apart c d) {k l : Hook}
    (hk : k.component ∈ components) (hl : l.component ∈ components) (hname : k.name = l.name) :
    k = l := by
  obtain ⟨c, v⟩ := k
  obtain ⟨d, w⟩ := l
  by_cases hcomponent : c = d
  · subst hcomponent
    exact congrArg (Hook.mk c) (hookName_injective c hname)
  · exact absurd hname ((hapart c hk d hl hcomponent).hookName_ne v w)

theorem Ran.calls_prefix {σ : Type} {h : Handler σ} {table : Table} {hooks : List Hook} {m m' : σ}
    {current : Option String} {calls : List (String × Option String)}
    {result : Except Error (Option String)} (hran : Ran h table hooks m current calls m' result) :
    calls.map (·.1) <+: hooks.map Hook.name := by
  induction hran with
  | done => exact List.nil_prefix
  | missing | failed | rejected => exact List.cons_prefix_cons.2 ⟨rfl, List.nil_prefix⟩
  | met _ _ _ ih => exact List.cons_prefix_cons.2 ⟨rfl, ih⟩

theorem plan_nodup (stored code : SortedMap String Nat) : (plan stored code.entries).Nodup := by
  refine (plan_ascending stored code).imp fun {k l} hbefore heq => ?_
  subst heq
  rcases hbefore with hlt | ⟨-, hlt⟩
  · exact Std.lt_irrefl hlt
  · exact Nat.lt_irrefl _ hlt

/-- A planned hook is that of one of the components. -/
theorem component_mem_keys_of_mem_plan {stored code : SortedMap String Nat} {k : Hook}
    (hk : k ∈ plan stored code.entries) : k.component ∈ code.keys := by
  obtain ⟨old, new, -, hnew, -⟩ := mem_plan_iff_pending.1 hk
  exact SortedMap.mem_keys.2 (by rw [hnew]; rfl)

end Migration

namespace Setup

open Migration
open Text (capitalize)

/-- A build calls hooks of its plan, in their order. -/
theorem exists_prefix_plan {σ τ : Type} {u : Setup σ τ} {t : Task} (hstored : u.stored = some t)
    (now : Instant) : ∃ calls, (u.logged.build now).1.log = logOf calls ∧
      calls.map (·.1) <+: (plan t.versions u.handler.versions.entries).map Hook.name := by
  cases hstart : u.table.startState with
  | error e =>
    exact ⟨[], congrArg (·.1.log) (build_of_no_start (u := u.logged) hstart now), List.nil_prefix⟩
  | ok start =>
    obtain ⟨calls, hran, hlog⟩ := migrate_performs u.handler u.table
      (distinct_entries u.handler.versions) u.memory t []
    refine ⟨calls, ?_, hran.calls_prefix⟩
    rw [memory_build (u := u.logged) hstored hstart]
    exact congrArg (fun o => o.1.log) hlog

/-- Two hooks share a name where their components have the same capitals and their versions are the
same, and where the component of one goes on with the digits that the version of the other begins
with; so a component shares none with itself. Components are apart where neither can be, which
plain names are. A stored task whose components are apart is brought up to the code by hooks that
are each called once, and each of them is the hook of one component and version alone. -/
theorem build_calls_own_hooks {σ τ : Type} :
    (∀ k l : Hook, 0 < k.version → 0 < l.version →
      (k.name = l.name ↔
        (capitalize k.component = capitalize l.component ∧ k.version = l.version) ∨
          l.Overlaps k ∨ k.Overlaps l)) ∧
    (∀ component, Function.Injective (hookName component)) ∧
    (∀ c d, Apart c d ↔ ∀ v w, 0 < v → 0 < w → hookName c v ≠ hookName d w) ∧
    (∀ c d, isPlain c = true → isPlain d = true → c ≠ d → Apart c d) ∧
    ∀ (u : Setup σ τ) (t : Task) (now : Instant), u.stored = some t →
      (∀ c ∈ u.handler.versions.keys, ∀ d ∈ u.handler.versions.keys, c ≠ d → Apart c d) →
      (∀ k l : Hook, k.component ∈ u.handler.versions.keys →
        l.component ∈ u.handler.versions.keys → 0 < k.version → 0 < l.version →
          k.name = l.name → k = l) ∧
      ∃ calls, (u.logged.build now).1.log = logOf calls ∧ (calls.map (·.1)).Nodup ∧
        ∀ c ∈ calls, ∃ k ∈ plan t.versions u.handler.versions.entries, k.name = c.1 ∧
          ∀ l : Hook, l.component ∈ u.handler.versions.keys → 0 < l.version → l.name = c.1 →
            l = k := by
  refine ⟨fun k l _ _ => hook_name_eq_iff, hookName_injective, fun c d => apart_iff,
    fun c d => apart_of_isPlain, fun u t now hstored hapart => ?_⟩
  refine ⟨fun k l hkc hlc _ _ => hook_eq_of_name hapart hkc hlc, ?_⟩
  obtain ⟨calls, hlog, hcalled⟩ := exists_prefix_plan hstored now
  refine ⟨calls, hlog, ?_, fun c hc => ?_⟩
  · have hnames : ((plan t.versions u.handler.versions.entries).map Hook.name).Nodup := by
      refine List.Nodup.map_on (fun k hk l hl hname => ?_) (plan_nodup _ _)
      exact hook_eq_of_name hapart (component_mem_keys_of_mem_plan hk)
        (component_mem_keys_of_mem_plan hl) hname
    exact hcalled.sublist.nodup hnames
  · obtain ⟨k, hk, hname⟩ := List.mem_map.1 (hcalled.subset (List.mem_map_of_mem hc))
    exact ⟨k, hk, hname, fun l hlc _ hl =>
      hook_eq_of_name hapart hlc (component_mem_keys_of_mem_plan hk) (hl.trans hname.symm)⟩

/-- The components of `pollBehind` are plain, so its hooks are there for one component alone. -/
theorem build_calls_own_hooks_pollBehind :
    (∀ c ∈ pollBehind.handler.versions.keys, ∀ d ∈ pollBehind.handler.versions.keys,
      c ≠ d → Apart c d) ∧
    (pollBehind.logged.build ⟨1, 0⟩).1.log =
      [.updated "updateJobs2" none, .updated "updateJobs3" (some "poll")] ∧
    ∀ l : Hook, l.component ∈ pollBehind.handler.versions.keys → 0 < l.version →
      l.name = "updateJobs3" → l = ⟨"jobs", 3⟩ := by
  have hplain : ∀ c ∈ pollBehind.handler.versions.keys, isPlain c = true := by decide +kernel
  obtain ⟨-, -, -, happart, hruns⟩ := build_calls_own_hooks (σ := Unit) (τ := ScriptedSupply)
  have hapart : ∀ c ∈ pollBehind.handler.versions.keys, ∀ d ∈ pollBehind.handler.versions.keys,
      c ≠ d → Apart c d := fun c hc d hd => happart c d (hplain c hc) (hplain d hd)
  obtain ⟨hinjective, -⟩ := hruns pollBehind _ ⟨1, 0⟩ rfl hapart
  exact ⟨hapart, rfl, fun l hl hlv hname =>
    hinjective l ⟨"jobs", 3⟩ hl (by decide +kernel) hlv (by decide) hname⟩

/-- A task that is behind with two components, whose next hooks have one name. -/
def sharedHook : Setup Unit ScriptedSupply where
  table := Session.pollTable
  handler :=
    { Handler.none with
      versions := .ofList [("job", 11), ("job1", 1)]
      update := fun m hook _ _ =>
        if hook = "updateJob11" then (m, some (.ok {})) else (m, none) }
  memory := ()
  taskId := "poll"
  stored := some { Task.create "poll" "" ⟨0, 0⟩ with
    versions := .ofList [("job", 10), ("job1", 0)] }

/-- Components that differ may share a hook, which a migration then calls for both of them. -/
theorem migrations_share_hook :
    ¬(∀ (c d : String) (v w : Nat), c ≠ "" → d ≠ "" → 1 ≤ v → 1 ≤ w →
        hookName c v = hookName d w → c = d ∧ v = w) ∧
      hookName "job" 2 = hookName "Job" 2 ∧
      (sharedHook.logged.build ⟨1, 0⟩).1.log =
        [.updated "updateJob11" none, .updated "updateJob11" none] := by
  refine ⟨fun h => ?_, rfl, rfl⟩
  have hname : hookName "job" 11 = hookName "job1" 1 := rfl
  have hsame := (h "job" "job1" 11 1 (by decide) (by decide) (by decide) (by decide) hname).2
  omega

end Setup
end TaskTable
