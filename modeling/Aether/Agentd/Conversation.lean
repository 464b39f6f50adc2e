import Aether.Core.Str

/-!
# Conversation memory (`aether-agentd/src/conversation.rs`)

A context keeps the last turns of a conversation and what was mentioned last.  The deque of turns is
a list, oldest turn first; that it is bounded is part of the type.
-/

namespace Aether.Agentd

open Aether.Core

def conversationSnapshotVersion : UInt32 := 1

structure ConversationTurn where
  userText : String
  apps : List String
  windows : List String
  files : List String
  deriving DecidableEq

structure ConversationContext where
  turns : List ConversationTurn
  capacity : ℕ
  lastApp : Option String
  lastWindow : Option String
  lastFile : Option String
  two_le_capacity : 2 ≤ capacity
  length_le_capacity : turns.length ≤ capacity

structure ConversationSnapshot where
  version : UInt32
  capacity : ℕ
  turns : List ConversationTurn
  lastApp : Option String
  lastWindow : Option String
  lastFile : Option String
  deriving DecidableEq

namespace ConversationContext

def pushWithFiles (c : ConversationContext) (turn : ConversationTurn) : ConversationContext where
  turns := (if c.turns.length ≥ c.capacity then c.turns.tail else c.turns) ++ [turn]
  capacity := c.capacity
  lastApp := if turn.apps ≠ [] then turn.apps.getLast? else c.lastApp
  lastWindow :=
    if turn.windows ≠ [] then turn.windows.getLast?
    else if turn.apps ≠ [] then turn.apps.getLast? else c.lastWindow
  lastFile := if turn.files ≠ [] then turn.files.getLast? else c.lastFile
  two_le_capacity := c.two_le_capacity
  length_le_capacity := by
    have hlen := c.length_le_capacity
    have htwo := c.two_le_capacity
    split_ifs <;> simp only [List.length_append, List.length_tail, List.length_singleton] <;> omega

def hasPronoun (text : String) : Bool :=
  let lower := Str.toAsciiLowercase text.toList
  (Str.splitWhitespace lower).any (fun w =>
    Str.isOneOf (Str.trimMatches (fun c => !c.isAlpha) w) ["it", "that", "this", "them", "there"]) ||
    Str.contains lower " it " || Str.contains lower " it." || Str.endsWith lower " it"

def resolvePronoun (c : ConversationContext) (text : String) : Option String :=
  if hasPronoun text then c.lastApp.or c.lastWindow else none

def snapshot (c : ConversationContext) : ConversationSnapshot :=
  { version := conversationSnapshotVersion, capacity := c.capacity, turns := c.turns,
    lastApp := c.lastApp, lastWindow := c.lastWindow, lastFile := c.lastFile }

def restore (c : ConversationContext) (snap : ConversationSnapshot) :
    Except String ConversationContext :=
  if snap.version ≠ conversationSnapshotVersion then
    .error (s!"conversation snapshot version {snap.version} is not supported " ++
      s!"(expected {conversationSnapshotVersion})")
  else
    let newCap := max (max c.capacity snap.capacity) 2
    .ok {
      turns := snap.turns.drop (snap.turns.length - newCap)
      capacity := newCap
      lastApp := snap.lastApp
      lastWindow := snap.lastWindow
      lastFile := snap.lastFile
      two_le_capacity := le_max_right ..
      length_le_capacity := by rw [List.length_drop]; omega }

def pushAll (c : ConversationContext) (turns : List ConversationTurn) : ConversationContext :=
  turns.foldl pushWithFiles c

variable (c : ConversationContext)

lemma turns_pushWithFiles (turn : ConversationTurn) :
    (c.pushWithFiles turn).turns = (c.turns ++ [turn]).rtake c.capacity := by
  have hlen := c.length_le_capacity
  have htwo := c.two_le_capacity
  simp only [pushWithFiles, List.rtake, List.length_append, List.length_singleton]
  by_cases hfull : c.turns.length ≥ c.capacity
  · have hone : c.turns.length + 1 - c.capacity = 1 := by omega
    rw [if_pos hfull, hone, List.drop_one, List.tail_append_of_ne_nil]
    exact List.ne_nil_of_length_pos (by omega)
  · have hzero : c.turns.length + 1 - c.capacity = 0 := by omega
    rw [if_neg hfull, hzero, List.drop_zero]

lemma rtake_rtake_append {α : Type*} (l m : List α) (n : ℕ) :
    (l.rtake n ++ m).rtake n = (l ++ m).rtake n := by
  have hdrop : l.rtake n ++ m = (l ++ m).drop (l.length - n) := by
    rw [List.rtake, List.drop_append_of_le_length (Nat.sub_le _ _)]
  rw [hdrop, List.rtake, List.rtake, List.drop_drop, List.length_drop, List.length_append]
  congr 1
  omega

/-- **Step by step, the last turns are kept**, and never more than the capacity. -/
theorem turns_pushAll (turns : List ConversationTurn) :
    (c.pushAll turns).capacity = c.capacity ∧
      (c.pushAll turns).turns = (c.turns ++ turns).rtake c.capacity := by
  induction turns generalizing c with
  | nil =>
    refine ⟨rfl, ?_⟩
    rw [List.append_nil, List.rtake, Nat.sub_eq_zero_of_le c.length_le_capacity]
    rfl
  | cons turn turns ih =>
    obtain ⟨hcap, htur⟩ := ih (c.pushWithFiles turn)
    refine ⟨hcap, htur.trans ?_⟩
    rw [turns_pushWithFiles, pushWithFiles, rtake_rtake_append, List.append_assoc]
    rfl

lemma restore_snapshot {c' : ConversationContext} (h : c'.capacity ≤ c.capacity) :
    c'.restore c.snapshot = .ok c := by
  have hcap : max (max c'.capacity c.capacity) 2 = c.capacity := by
    have := c.two_le_capacity
    omega
  have hdrop : c.turns.length - c.capacity = 0 := Nat.sub_eq_zero_of_le c.length_le_capacity
  simp [restore, snapshot, hcap, hdrop]

/-- **Conversation memory**: pushes keep the most recent turns, in order, up to the capacity; and a
restored context goes on like the original. -/
theorem memory_spec :
    (∀ turns, (c.pushAll turns).capacity = c.capacity ∧
      (c.pushAll turns).turns = (c.turns ++ turns).rtake c.capacity ∧
      (c.pushAll turns).turns.length ≤ c.capacity) ∧
    ∀ c' : ConversationContext, c'.capacity ≤ c.capacity →
      ∃ restored, c'.restore c.snapshot = .ok restored ∧ ∀ turns,
        (∀ text, (restored.pushAll turns).resolvePronoun text =
          (c.pushAll turns).resolvePronoun text) ∧
        (restored.pushAll turns).snapshot = (c.pushAll turns).snapshot := by
  refine ⟨fun turns => ?_, fun c' h => ⟨c, c.restore_snapshot h, fun _ => ⟨fun _ => rfl, rfl⟩⟩⟩
  obtain ⟨hcap, htur⟩ := c.turns_pushAll turns
  exact ⟨hcap, htur, hcap ▸ (c.pushAll turns).length_le_capacity⟩

end ConversationContext

end Aether.Agentd
