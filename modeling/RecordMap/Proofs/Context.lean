import Mathlib.Tactic.Common
import RecordMap.Fault

/-!
# Faults in context

A fault is put in front of another in one of two ways: its cause becomes one more link, or, if it
has links of its own, its text becomes one.  What a fault says cannot tell the two apart.  Its
message is that of the causes it was made of, and nothing but the order in which they come counts
(`message_fault`); its root is the last of them (`getLast?_causes`).
-/

namespace RecordMap.Fault

/-- How a fault came about: by a cause alone, or from a fault `e` that was put into the context of
a fault `c`. -/
inductive Account
  | cause (c : Cause)
  | context (e c : Account)

namespace Account

def fault : Account → Fault
  | .cause c => .ofCause c
  | .context e c => e.fault.context c.fault

/-- The causes that the fault was made of, each before what it was put in front of. -/
def causes : Account → List Cause
  | .cause c => [c]
  | .context e c => c.causes ++ e.causes

theorem causes_ne_nil : ∀ a : Account, a.causes ≠ []
  | .cause _ => List.cons_ne_nil _ _
  | .context e _ => List.append_ne_nil_of_right_ne_nil _ e.causes_ne_nil

end Account

theorem exists_account : ∀ (outer : Cause) (inner : List Cause),
    ∃ a : Account, a.fault = ⟨outer, inner⟩
  | outer, [] => ⟨.cause outer, rfl⟩
  | outer, d :: ds => by
    obtain ⟨a, ha⟩ := exists_account d ds
    refine ⟨.context a (.cause outer), ?_⟩
    rw [Account.fault, ha]
    rfl

variable (e c : Fault)

/-- The two ways to put `c` in front of `e` add links that have the message of `c`. -/
theorem causes_context : ∃ links : List Cause, links ≠ [] ∧
    String.intercalate ": " (links.map Cause.message) = c.message ∧
      (e.context c).causes = links ++ e.causes := by
  unfold context
  split_ifs with h
  · refine ⟨c.causes, List.cons_ne_nil _ _, rfl, ?_⟩
    rw [causes, causes, causes, List.isEmpty_iff.1 h]
    rfl
  · exact ⟨[.remark (.stated c.message)], List.cons_ne_nil _ _, String.intercalate_singleton, rfl⟩

theorem message_context : (e.context c).message = c.message ++ ": " ++ e.message := by
  obtain ⟨links, hne, hmessage, hcauses⟩ := causes_context e c
  have hlinks : links.map Cause.message ≠ [] := by simpa using hne
  have hinner : e.causes.map Cause.message ≠ [] := by simp [causes]
  rw [message, hcauses, List.map_append, String.intercalate_append_of_ne_nil hlinks hinner,
    hmessage]
  rfl

theorem root_context : (e.context c).root = e.root := by
  have hinner : (e.context c).inner = e.outer :: e.inner := by
    unfold context
    split_ifs <;> rfl
  rw [root, hinner, List.getLastD_cons, root]

theorem kind_context : (e.context c).kind = if c.inner = [] then c.kind else .remark := by
  unfold context
  split_ifs with h h' h'
  · rfl
  · exact absurd (List.isEmpty_iff.1 h) h'
  · exact absurd (List.isEmpty_iff.2 h') h
  · rfl

namespace Account

/-- A fault says what its causes say, in their order. -/
theorem message_fault : ∀ a : Account,
    a.fault.message = String.intercalate ": " (a.causes.map Cause.message)
  | .cause c => rfl
  | .context e c => by
    have he : e.causes.map Cause.message ≠ [] := by simpa using e.causes_ne_nil
    have hc : c.causes.map Cause.message ≠ [] := by simpa using c.causes_ne_nil
    rw [fault, message_context, message_fault e, message_fault c, causes, List.map_append,
      String.intercalate_append_of_ne_nil hc he]

theorem getLast?_causes : ∀ a : Account, a.causes.getLast? = some a.fault.root
  | .cause c => rfl
  | .context e c => by
    rw [fault, root_context, causes, List.getLast?_append, getLast?_causes e]
    rfl

end Account

/-- What a fault says, goes back to and is after it was put into context, once or over and over.
Every fault has an account, so nothing is left out. -/
theorem context_laws :
    (∀ e c : Fault, (e.context c).message = c.message ++ ": " ++ e.message ∧
      (e.context c).root = e.root ∧
      (e.context c).kind = if c.inner = [] then c.kind else .remark) ∧
    (∀ a b c : Fault,
      ((a.context b).context c).message = (a.context (b.context c)).message ∧
      ((a.context b).context c).root = (a.context (b.context c)).root) ∧
    (∀ a : Account, a.fault.message = String.intercalate ": " (a.causes.map Cause.message) ∧
      a.causes.getLast? = some a.fault.root) ∧
    ∀ e : Fault, ∃ a : Account, a.fault = e := by
  refine ⟨fun e c => ⟨message_context e c, root_context e c, kind_context e c⟩,
    fun a b c => ⟨?_, ?_⟩, fun a => ⟨a.message_fault, a.getLast?_causes⟩,
    fun e => exists_account e.outer e.inner⟩
  · simp only [message_context, String.append_assoc]
  · simp only [root_context]

end RecordMap.Fault
