import Criteria.Proofs.Building
import Criteria.Proofs.FirstFault

/-! The order of events. Building a list logs what happens in its conditions from left to right: the text of an
    embedded tree is compiled where the tree stands, and a group is built and then compiled after everything inside of
    it. A list is logged as built only at its end, so the log of a refused list breaks off in the refused condition.
    Only rendering logs at the debug level. -/

namespace Criteria
namespace Event

/-- A list of conditions became a tree. -/
def isBuilt : Event → Bool
  | .built .. => true
  | _ => false

/-- A tree was turned into text. -/
def isCompiled : Event → Bool
  | .compiled .. => true
  | _ => false

end Event

namespace Condition

/-- A nested group. -/
def isGroup : Condition → Bool
  | .group .. => true
  | _ => false

/-- An embedded tree. -/
def isTree : Condition → Bool
  | .tree .. => true
  | _ => false

instance (c : Condition) : Decidable c.Sound := decidable_of_iff (c.ownFault? 0 = none) sound_iff.symm

/-- Nothing is missing in the condition, nested ones included. -/
def Buildable (c : Condition) : Prop := ∀ node ∈ c.preorder 0, node.2.Sound

instance (c : Condition) : Decidable c.Buildable := inferInstanceAs (Decidable (∀ node ∈ c.preorder 0, node.2.Sound))

variable {parent s : Connective} {position : Nat} {c : Condition} {cs : List Condition}

/-- Neither the place of a condition nor the list around it decides whether it can be built. -/
theorem buildable_iff (parent : Connective) (position : Nat) :
    c.Buildable ↔ ∃ clause, (c.resolve parent position).outcome = .ok clause := by
  have hgives : (∃ clause, (c.resolve parent position).outcome = .ok clause) ↔
      ∃ clause, (c.resolve parent 0).outcome = .ok clause :=
    exists_congr fun clause => outcome_eq_ok_iff
  rw [hgives, ← Outcome.fault?_eq_none_iff, fault?_resolve, List.findSome?_eq_none_iff]
  exact forall₂_congr fun node _ => sound_iff

theorem not_buildable_iff (parent : Connective) (position : Nat) :
    ¬c.Buildable ↔ ∃ fault, (c.resolve parent position).outcome = .error fault := by
  rw [Outcome.exists_error_iff, ← buildable_iff]

theorem exists_resolveAll_iff (parent : Connective) (position : Nat) :
    (∃ clauses, (resolveAll parent position cs).outcome = .ok clauses) ↔ ∀ c ∈ cs, c.Buildable := by
  induction cs generalizing position with
  | nil => simp [outcome_resolveAll_nil]
  | cons c cs ih =>
    rw [List.forall_mem_cons, ← ih (position + 1), buildable_iff parent position, outcome_resolveAll_cons]
    simp only [Outcome.bind_eq_ok, Outcome.map_eq_ok]
    constructor
    · rintro ⟨_, clause, hc, rest, hrest, -⟩
      exact ⟨⟨clause, hc⟩, rest, hrest⟩
    · rintro ⟨⟨clause, hc⟩, rest, hrest⟩
      exact ⟨_, clause, hc, rest, hrest, rfl⟩

theorem exists_ofConditions_iff : (∃ t, (Tree.ofConditions s cs).outcome = .ok t) ↔ ∀ c ∈ cs, c.Buildable := by
  simp only [Tree.outcome_ofConditions, Outcome.map_eq_ok, ← exists_resolveAll_iff s 0]
  constructor
  · rintro ⟨_, clauses, h, -⟩
    exact ⟨clauses, h⟩
  · rintro ⟨clauses, h⟩
    exact ⟨_, clauses, h, rfl⟩

theorem buildable_group {connective : Option Connective} {children : List Condition} :
    (group connective children).Buildable ↔ children ≠ [] ∧ ∀ c ∈ children, c.Buildable := by
  rw [buildable_iff .and 0, ← exists_ofConditions_iff]
  constructor
  · rintro ⟨clause, h⟩
    obtain ⟨hne, nested, hnested, -⟩ := gives_group.mp h
    exact ⟨hne, nested, hnested⟩
  · rintro ⟨hne, nested, hnested⟩
    exact ⟨_, gives_group.mpr ⟨hne, nested, hnested, rfl⟩⟩

/-! ### Events -/

mutual

/-- What is logged for a condition in a list joined by `parent`. -/
def history (parent : Connective) : Condition → List Event
  | .field _ _ => []
  | .group connective children =>
    if children.isEmpty then []
    else
      historyThen [.built children.length (connective.getD parent.flip), .compiled Dialect.generic.name]
        (connective.getD parent.flip) children
  | .raw _ => []
  | .tree _ => [.compiled Dialect.generic.name]

/-- What is logged for a list, which goes on as long as its conditions can be built, and `last` after all of them. -/
def historyThen (last : List Event) (parent : Connective) : List Condition → List Event
  | [] => last
  | c :: cs => c.history parent ++ if c.Buildable then historyThen last parent cs else []

end

/-- What is logged for a whole list, which is built after all of its conditions. -/
def historyOf (connective : Connective) (cs : List Condition) : List Event :=
  historyThen [.built cs.length connective] connective cs

theorem historyThen_of_buildable {last : List Event} (h : ∀ c ∈ cs, c.Buildable) :
    historyThen last parent cs = cs.flatMap (history parent) ++ last := by
  induction cs with
  | nil => rfl
  | cons c cs ih =>
    obtain ⟨hc, hcs⟩ := List.forall_mem_cons.mp h
    rw [historyThen, if_pos hc, ih hcs, List.flatMap_cons, List.append_assoc]

theorem historyThen_append_cons {last : List Event} {before after : List Condition}
    (h : ∀ c ∈ before, c.Buildable) (hc : ¬c.Buildable) :
    historyThen last parent (before ++ c :: after) = before.flatMap (history parent) ++ c.history parent := by
  induction before with
  | nil =>
    rw [List.nil_append, historyThen, if_neg hc, List.append_nil]
    rfl
  | cons b before ih =>
    obtain ⟨hb, hbefore⟩ := List.forall_mem_cons.mp h
    rw [List.cons_append, historyThen, if_pos hb, ih hbefore, List.flatMap_cons, List.append_assoc]

/-- The events of a list and of a step after it, if those of each condition are known. -/
theorem events_resolveAll_bind {α : Type} {last : List Event} {k : List Clause → Attempt α}
    (hk : ∀ clauses : List Clause, clauses.length = cs.length → (k clauses).events = last)
    (h : ∀ c ∈ cs, ∀ position, (resolve parent position c).events = c.history parent) (position : Nat) :
    (resolveAll parent position cs >>= k).events = historyThen last parent cs := by
  induction cs generalizing position k with
  | nil =>
    rw [resolveAll, pure_bind, historyThen]
    exact hk [] rfl
  | cons c cs ih =>
    obtain ⟨hc, hcs⟩ := List.forall_mem_cons.mp h
    rw [resolveAll, bind_assoc, Attempt.events_bind, hc, historyThen]
    congr 1
    cases houtcome : (resolve parent position c).outcome with
    | error fault => rw [if_neg ((not_buildable_iff parent position).mpr ⟨fault, houtcome⟩)]
    | ok clause =>
      rw [if_pos ((buildable_iff parent position).mpr ⟨clause, houtcome⟩)]
      -- What follows the rest of the list also puts the head's clause in front.
      simp only [bind_assoc, pure_bind]
      exact ih (fun clauses hlength => hk _ (congrArg (· + 1) hlength)) hcs _

theorem events_resolve (c : Condition) (parent : Connective) (position : Nat) :
    (resolve parent position c).events = c.history parent := by
  induction c generalizing parent position with
  | field name test =>
    rw [resolve, history, checkedField]
    split
    · rfl
    · cases test.fault? name <;> rfl
  | group connective children ih =>
    rw [resolve, history]
    split
    · rfl
    · refine events_resolveAll_bind (fun clauses hlength => ?_) (fun c hc => ih c hc _) 0
      rw [← hlength]
      rfl
  | raw piece => rfl
  | tree t => rfl

theorem events_ofConditions (s : Connective) (cs : List Condition) :
    (Tree.ofConditions s cs).events = historyOf s cs := by
  refine events_resolveAll_bind (fun clauses hlength => ?_) (fun c _ => events_resolve c s) 0
  rw [← hlength]
  rfl

theorem level_historyThen {last : List Event} (hlast : ∀ e ∈ last, e.level = .trace)
    (h : ∀ c ∈ cs, ∀ e ∈ c.history parent, e.level = .trace) : ∀ e ∈ historyThen last parent cs, e.level = .trace := by
  induction cs with
  | nil => exact hlast
  | cons c cs ih =>
    obtain ⟨hc, hcs⟩ := List.forall_mem_cons.mp h
    intro e he
    rw [historyThen, List.mem_append] at he
    rcases he with he | he
    · exact hc e he
    · split at he
      · exact ih hcs e he
      · cases he

theorem level_history (c : Condition) (parent : Connective) : ∀ e ∈ c.history parent, e.level = .trace := by
  induction c generalizing parent with
  | field name test => exact nofun
  | group connective children ih =>
    rw [history]
    split
    · exact nofun
    · exact level_historyThen (by simp [Event.level]) fun c hc => ih c hc _
  | raw piece => exact nofun
  | tree t => simp [history, Event.level]

/-! ### Numbers of events -/

/-- Each group is logged twice and each embedded tree once. -/
structure Tally (events : List Event) (nodes : List (Nat × Condition)) : Prop where
  built : events.countP Event.isBuilt = nodes.countP (·.2.isGroup)
  compiled : events.countP Event.isCompiled = nodes.countP (·.2.isGroup) + nodes.countP (·.2.isTree)

theorem Tally.append {events events' : List Event} {nodes nodes' : List (Nat × Condition)}
    (h : Tally events nodes) (h' : Tally events' nodes') : Tally (events ++ events') (nodes ++ nodes') where
  built := by rw [List.countP_append, List.countP_append, h.built, h'.built]
  compiled := by
    simp only [List.countP_append, h.compiled, h'.compiled]
    omega

theorem Tally.perm {events events' : List Event} {nodes : List (Nat × Condition)} (h : Tally events nodes)
    (hperm : events.Perm events') : Tally events' nodes :=
  ⟨hperm.countP_eq _ ▸ h.built, hperm.countP_eq _ ▸ h.compiled⟩

theorem tally_each (h : ∀ c ∈ cs, ∀ position, Tally (c.history parent) (c.preorder position)) (position : Nat) :
    Tally (cs.flatMap (history parent)) (preorderEach position cs) := by
  induction cs generalizing position with
  | nil => exact ⟨rfl, rfl⟩
  | cons c cs ih =>
    obtain ⟨hc, hcs⟩ := List.forall_mem_cons.mp h
    exact (hc position).append (ih hcs (position + 1))

theorem tally_of_buildable (hc : c.Buildable) (parent : Connective) (position : Nat) :
    Tally (c.history parent) (c.preorder position) := by
  induction c generalizing parent position with
  | field name test => exact ⟨rfl, rfl⟩
  | group connective children ih =>
    obtain ⟨hne, hchildren⟩ := buildable_group.mp hc
    have hinner := tally_each (fun c hc => ih c hc (hchildren c hc) (connective.getD parent.flip)) 0
    have hown : Tally [.built children.length (connective.getD parent.flip), .compiled Dialect.generic.name]
        [(position, .group connective children)] := ⟨rfl, rfl⟩
    rw [history, if_neg (by simpa using hne), historyThen_of_buildable hchildren]
    -- A group comes before its children in the pre-order, and its events after theirs.
    exact (hown.append hinner).perm List.perm_append_comm
  | raw piece => exact ⟨rfl, rfl⟩
  | tree t => exact ⟨rfl, rfl⟩

end Condition

namespace Tree
open Condition

variable {s : Connective} {cs before after : List Condition} {bad : Condition} {t : Tree} {fault : Fault}

theorem level_events_ofConditions (s : Connective) (cs : List Condition) :
    ∀ e ∈ (ofConditions s cs).events, e.level = .trace := by
  rw [events_ofConditions]
  exact level_historyThen (by simp [Event.level]) fun c _ => level_history c s

theorem countP_events_ofConditions (ht : (ofConditions s cs).outcome = .ok t) :
    (ofConditions s cs).events.countP Event.isBuilt = 1 + (preorderEach 0 cs).countP (·.2.isGroup) ∧
      (ofConditions s cs).events.countP Event.isCompiled =
        (preorderEach 0 cs).countP (·.2.isGroup) + (preorderEach 0 cs).countP (·.2.isTree) := by
  have hbuildable := exists_ofConditions_iff.mp ⟨t, ht⟩
  have htally := tally_each (fun c hc => tally_of_buildable (hbuildable c hc) s) 0
  rw [events_ofConditions, historyOf, historyThen_of_buildable hbuildable, List.countP_append, List.countP_append,
    htally.built, htally.compiled]
  exact ⟨Nat.add_comm _ _, rfl⟩

/-- The log of a refused list is that of what comes before the refused condition, up to its last event, and then that of
    the condition. -/
theorem events_ofConditions_append_cons (ht : (ofConditions s before).outcome = .ok t)
    (hfault : (ofConditions s [bad]).outcome = .error fault) (after : List Condition) :
    ∃ events, (ofConditions s before).events = events ++ [.built before.length s] ∧
      (ofConditions s (before ++ bad :: after)).events = events ++ (ofConditions s [bad]).events := by
  have hbefore := exists_ofConditions_iff.mp ⟨t, ht⟩
  have hbad : ¬bad.Buildable := by
    intro hbuildable
    obtain ⟨u, hu⟩ := (exists_ofConditions_iff (s := s)).mpr (List.forall_mem_singleton.mpr hbuildable)
    rw [hu] at hfault
    cases hfault
  have halone : historyOf s [bad] = bad.history s := by
    rw [historyOf, historyThen, if_neg hbad, List.append_nil]
  refine ⟨before.flatMap (history s), ?_, ?_⟩
  · rw [events_ofConditions, historyOf, historyThen_of_buildable hbefore]
  · rw [events_ofConditions, events_ofConditions, halone, historyOf, historyThen_append_cons hbefore hbad]

/-- What is logged while a list is built, and what is logged when a tree is rendered. -/
structure EventsInOrder (s : Connective) (cs : List Condition) : Prop where
  history : (ofConditions s cs).events = historyOf s cs
  building : ∀ e ∈ (ofConditions s cs).events, e.level = .trace
  number : ∀ t, (ofConditions s cs).outcome = .ok t →
    (ofConditions s cs).events.countP Event.isBuilt = 1 + (preorderEach 0 cs).countP (·.2.isGroup) ∧
    (ofConditions s cs).events.countP Event.isCompiled =
      (preorderEach 0 cs).countP (·.2.isGroup) + (preorderEach 0 cs).countP (·.2.isTree)
  refused : ∀ before bad after t fault, cs = before ++ bad :: after → (ofConditions s before).outcome = .ok t →
    (ofConditions s [bad]).outcome = .error fault →
    ∃ events, (ofConditions s before).events = events ++ [.built before.length s] ∧
      (ofConditions s cs).events = events ++ (ofConditions s [bad]).events
  rendering : ∀ t : Tree,
    t.build.events = [.compiled Dialect.generic.name, .rendered t.build.value.sql t.build.value.params.length] ∧
    t.debugSql.events = [.compiled Dialect.generic.name, .rendered t.build.value.sql t.build.value.params.length]
  debug : ∀ sql bindings, (Event.rendered sql bindings).level = .debug

/-- Building a list logs the history of its conditions and nothing at the debug level. If the list can be built, one
    event tells this and each group inside gives one more; groups and embedded trees give one each for their text. A
    refused list has the events of what comes before the refused condition, less the last one, and those of that
    condition. Rendering logs the compiled text and, at the debug level, what is handed out before literals replace
    the placeholders. -/
theorem events_in_order (s : Connective) (cs : List Condition) : EventsInOrder s cs where
  history := events_ofConditions s cs
  building := level_events_ofConditions s cs
  number _ ht := countP_events_ofConditions ht
  refused _ _ after _ _ hcs ht hfault := hcs ▸ events_ofConditions_append_cons ht hfault after
  rendering _ := ⟨rfl, rfl⟩
  debug _ _ := rfl

theorem events_in_order_nested :
    ∃ cs, cs = [
        .field "a" (.compare none (.int 1)),
        .group none [.raw ⟨"b", []⟩, .group (some .and) [.field "c" (.like .null)]],
        .tree ⟨.or, [.fragment ⟨"d", []⟩]⟩] ∧
      ∃ t, (ofConditions .and cs).outcome = .ok t ∧
        (ofConditions .and cs).events = [.built 1 .and, .compiled "generic", .built 2 .or, .compiled "generic",
          .compiled "generic", .built 3 .and] ∧
        ((ofConditions .and cs).events.countP Event.isBuilt = 1 + 2 ∧
          (ofConditions .and cs).events.countP Event.isCompiled = 2 + 1) ∧
        ∃ events, (ofConditions .and cs).events = events ++ [.built 3 .and] ∧
          (ofConditions .and (cs ++ .group none [.tree empty, .group none [], .tree empty] :: [.tree empty])).events =
            events ++ [.compiled "generic"] :=
  ⟨_, rfl, _, rfl, rfl, (events_in_order .and _).number _ rfl,
    (events_in_order .and _).refused _ _ _ _ (.emptyGroup "1") rfl rfl rfl⟩

end Tree
end Criteria
