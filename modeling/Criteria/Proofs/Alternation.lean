import Criteria.Proofs.Building
import Criteria.Proofs.Pieces

/-! Alternating connectives in closed form. A group without a connective takes the one that the list around it does
    not use, so its connective follows from its path alone: it is that of the nearest group around it that has one,
    or of the outermost list, changed once for every level in between. With the connectives of all groups spelled
    out in this way, the outermost connective joins the outermost clauses and has no other part. -/

namespace Criteria
namespace Connective

/-! ### Paths

A path lists the connectives of nested groups as they are written down, the innermost group first. -/

/-- The connective with AND and OR exchanged as many times as `n` says. -/
def flipped (s : Connective) (n : Nat) : Connective := if n % 2 = 0 then s else s.flip

theorem flipped_succ (s : Connective) (n : Nat) : s.flipped (n + 1) = (s.flipped n).flip := by
  unfold flipped
  by_cases h : n % 2 = 0
  · have hsucc : (n + 1) % 2 ≠ 0 := by omega
    rw [if_pos h, if_neg hsucc]
  · have hsucc : (n + 1) % 2 = 0 := by omega
    rw [if_neg h, if_pos hsucc, flip_flip]

/-- The connective of the innermost group of a path, where `root` joins the outermost list: the nearest one that is
    written down, changed once for each group inside of it. -/
def along (root : Connective) (path : List (Option Connective)) : Connective :=
  ((path.findSome? id).getD root).flipped (path.takeWhile Option.isNone).length

variable {root : Connective} {path : List (Option Connective)}

/-- A group takes its own connective, or the one that is not used around it. -/
theorem along_cons (connective : Option Connective) :
    along root (connective :: path) = connective.getD (along root path).flip := by
  cases connective with
  | none => simp [along, flipped_succ]
  | some s => rfl

end Connective

namespace Condition
open Connective

mutual

/-- The condition inside of the groups of `path`, with the connective of every group written down. Embedded trees
    are left as they are. -/
def spelledOut (root : Connective) (path : List (Option Connective)) : Condition → Condition
  | .field name test => .field name test
  | .group none children =>
    .group (some (along root (none :: path))) (spelledOutEach root (none :: path) children)
  | .group (some s) children => .group (some s) (spelledOutEach root (some s :: path) children)
  | .raw piece => .raw piece
  | .tree t => .tree t

/-- The conditions of one list, spelled out one by one. -/
def spelledOutEach (root : Connective) (path : List (Option Connective)) : List Condition → List Condition
  | [] => []
  | c :: cs => c.spelledOut root path :: spelledOutEach root path cs

end

variable {root : Connective} {path : List (Option Connective)}

theorem spelledOutEach_eq_map (cs : List Condition) :
    spelledOutEach root path cs = cs.map (spelledOut root path) := by
  induction cs with
  | nil => rfl
  | cons c cs ih => rw [spelledOutEach, ih, List.map_cons]

theorem spelledOut_group (connective : Option Connective) (children : List Condition) :
    spelledOut root path (.group connective children) =
      .group (some (along root (connective :: path))) (children.map (spelledOut root (connective :: path))) := by
  cases connective <;> rw [spelledOut, spelledOutEach_eq_map]
  rfl

theorem resolveAll_spelledOut {cs : List Condition}
    (h : ∀ c ∈ cs, ∀ position, resolve (along root path) position (c.spelledOut root path) =
      resolve (along root path) position c) (position : Nat) :
    resolveAll (along root path) position (cs.map (spelledOut root path)) =
      resolveAll (along root path) position cs := by
  induction cs generalizing position with
  | nil => rfl
  | cons c cs ih =>
    obtain ⟨hc, hcs⟩ := List.forall_mem_cons.mp h
    rw [List.map_cons, resolveAll, resolveAll, hc, ih hcs]

/-- The path leads to the connective that is handed down while building, so writing it down changes nothing. -/
theorem resolve_spelledOut (c : Condition) (path : List (Option Connective)) (position : Nat) :
    resolve (along root path) position (c.spelledOut root path) = resolve (along root path) position c := by
  induction c generalizing path position with
  | group connective children ih =>
    have hchildren := resolveAll_spelledOut (fun c hc => ih c hc (connective :: path)) 0
    rw [spelledOut_group, resolve_group, resolve_group, List.isEmpty_map, Option.getD_some, Tree.ofConditions,
      hchildren, along_cons]
    rfl
  | _ => rfl

/-- A condition that is spelled out does not ask which connective joins the list it is in. -/
theorem resolve_spelledOut_congr (c : Condition) (s s' : Connective) (position : Nat) :
    resolve s position (c.spelledOut root path) = resolve s' position (c.spelledOut root path) := by
  cases c with
  | group connective children => rw [spelledOut_group, resolve_group, resolve_group, Option.getD_some, Option.getD_some]
  | _ => rfl

theorem resolveAll_spelledOut_congr (cs : List Condition) (s s' : Connective) (position : Nat) :
    resolveAll s position (cs.map (spelledOut root path)) =
      resolveAll s' position (cs.map (spelledOut root path)) := by
  induction cs generalizing position with
  | nil => rfl
  | cons c cs ih => rw [List.map_cons, resolveAll, resolveAll, resolve_spelledOut_congr c s s', ih]

end Condition

open Condition in
/-- Writing down the connectives that the paths lead to leaves the building of a list as it is, events included. The
    list so written can be built under the other connective as well and gives the same clauses and the same values;
    all that changes is what stands between the outermost clauses. -/
theorem Tree.ofConditions_spelledOut (s : Connective) (cs : List Condition) :
    ofConditions s (spelledOutEach s [] cs) = ofConditions s cs ∧
    (∀ fault, (ofConditions s cs).outcome = .error fault →
      (ofConditions s.flip (spelledOutEach s [] cs)).outcome = .error fault) ∧
    ∀ t, (ofConditions s cs).outcome = .ok t →
      ∃ u, (ofConditions s.flip (spelledOutEach s [] cs)).outcome = .ok u ∧ u.clauses = t.clauses ∧
        u.bindings.value = t.bindings.value ∧
        t.render.value = s.enclose (t.clauses.map (·.toFragment.sql)) ∧
        u.render.value = s.flip.enclose (t.clauses.map (·.toFragment.sql)) := by
  rw [spelledOutEach_eq_map]
  have hsame : resolveAll s 0 (cs.map (spelledOut s [])) = resolveAll s 0 cs :=
    resolveAll_spelledOut (fun c _ => resolve_spelledOut c []) 0
  have hother : (ofConditions s.flip (cs.map (spelledOut s []))).outcome =
      (ofConditions s cs).outcome.map fun t => ⟨s.flip, t.clauses⟩ := by
    rw [outcome_ofConditions, outcome_ofConditions, Outcome.map_map, resolveAll_spelledOut_congr cs s.flip s, hsame]
    rfl
  refine ⟨?_, ?_, ?_⟩
  · rw [ofConditions, ofConditions, hsame]
  · intro fault hfault
    rw [hother, hfault]
    rfl
  · intro t ht
    -- The clauses are the same, so both trees have the same values and differ in the word between the clauses.
    obtain ⟨rfl, -⟩ := ofConditions_eq_ok_iff.mp ht
    refine ⟨⟨t.connective.flip, t.clauses⟩, by rw [hother, ht]; rfl, rfl, ?_, ?_, ?_⟩
    · rw [value_bindings, value_bindings, params_toFragment, params_toFragment]
    · rw [value_render, sql_toFragment]
    · rw [value_render, sql_toFragment]

open Condition in
theorem Tree.ofConditions_spelledOut_nested :
    ∃ cs, cs = [
        .field "a" (.compare none (.int 1)),
        .group none [
          .field "b" (.compare none (.int 2)),
          .group none [.field "c" (.compare (some "!") .null), .field "d" (.like (.text "%"))],
          .group (some .or) [.group none [.raw ⟨"e > ?", [.int 3]⟩, .field "f" (.oneOf .isIn [.int 4])], .raw ⟨"g", []⟩]],
        .tree ⟨.or, [.field "h" (.compare none (.int 5)), .fragment ⟨"i", []⟩]⟩] ∧
      spelledOutEach .and [] cs = [
        .field "a" (.compare none (.int 1)),
        .group (some .or) [
          .field "b" (.compare none (.int 2)),
          .group (some .and) [.field "c" (.compare (some "!") .null), .field "d" (.like (.text "%"))],
          .group (some .or) [
            .group (some .and) [.raw ⟨"e > ?", [.int 3]⟩, .field "f" (.oneOf .isIn [.int 4])], .raw ⟨"g", []⟩]],
        .tree ⟨.or, [.field "h" (.compare none (.int 5)), .fragment ⟨"i", []⟩]⟩] ∧
      ∃ t, (ofConditions .and cs).outcome = .ok t ∧
        t.render.value = "(a = ? AND (b = ? OR (c IS NOT NULL AND d LIKE ?) OR ((e > ? AND f IN (?)) OR g)) AND (h = ? OR i))" ∧
        ∃ u, (ofConditions .or (spelledOutEach .and [] cs)).outcome = .ok u ∧ u.clauses = t.clauses ∧
          u.bindings.value = t.bindings.value ∧
          t.render.value = Connective.and.enclose (t.clauses.map (·.toFragment.sql)) ∧
          u.render.value = Connective.or.enclose (t.clauses.map (·.toFragment.sql)) :=
  ⟨_, rfl, rfl, _, rfl, by decide +kernel, (ofConditions_spelledOut .and _).2.2 _ rfl⟩

end Criteria
