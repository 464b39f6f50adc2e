import Aether.Algorithm.Redaction
import Aether.Security.Audit

/-!
# Sanitization of untrusted content (`aether-ai-defense/src/lib.rs`)

A `String` that is being edited is the list of its UTF-8 bytes.  `sanitize` returns `none` where
`String::truncate` or `String::replace_range` panics off a character boundary.
-/

namespace Aether.Defense

open Security (asBytes)

abbrev Text := List UInt8

def isContinuation (b : UInt8) : Bool := 0x80 ≤ b && b < 0xC0

def isCharBoundary (s : Text) (index : Nat) : Bool :=
  index == 0 || index == s.length || (s[index]?.map fun b => !isContinuation b).getD false

def truncate (s : Text) (newLen : Nat) : Option Text :=
  if newLen ≤ s.length then
    if isCharBoundary s newLen then some (s.take newLen) else none
  else some s

def replaceRange (s : Text) (first last : Nat) (replaceWith : Text) : Option Text :=
  if isCharBoundary s first && isCharBoundary s last then
    some (s.take first ++ replaceWith ++ s.drop last)
  else none

def contains (s pat : Text) : Bool := pat <:+: s

def replace (s pat new : Text) : Text :=
  if pat.isEmpty then
    (s.flatMap fun b => if isContinuation b then [b] else new ++ [b]) ++ new
  else Redaction.replaceAll pat new 0 s

def toAsciiLowercase (b : UInt8) : UInt8 := if 65 ≤ b && b ≤ 90 then b + 32 else b

def eqIgnoreAsciiCase (a b : UInt8) : Bool := toAsciiLowercase a == toAsciiLowercase b

inductive ContentSource where
  | userFile
  | toolOutput
  | webFetch
  | peerMessage
  | appIpc
  | fileMetadata
  deriving DecidableEq

structure Content where
  source : ContentSource
  body : String
  deriving DecidableEq

inductive SanitizationReason where
  | injectionPattern
  | toolCallHidden
  | systemPromptRedacted
  | truncated
  | refused
  deriving DecidableEq

inductive DefenseVerdict where
  | allow
  | modified
  | refused
  | escalation
  deriving DecidableEq

structure Sanitized where
  sanitized : Text
  reasons : List SanitizationReason
  verdict : DefenseVerdict
  deriving DecidableEq

structure SanitizationPolicy where
  maxLength : Nat
  injectionPatterns : List String
  toolCallPrefixes : List String
  systemPromptMarkers : List String
  refuseEscalationFromPeers : Bool
  deriving DecidableEq

namespace SanitizationPolicy

def default : SanitizationPolicy where
  maxLength := 16384
  injectionPatterns :=
    ["ignore previous instructions", "ignore all instructions", "disregard the above",
      "forget everything", "you are now", "new system prompt", "act as"]
  toolCallPrefixes := ["aetherctl ", "tool:", "[tool]"]
  systemPromptMarkers := ["system:", "<|system|>", "<|im_start|>"]
  refuseEscalationFromPeers := true

end SanitizationPolicy

def matchesCi : (haystack needle : Text) → Bool
  | _, [] => true
  | [], _ :: _ => false
  | h :: hs, n :: ns => eqIgnoreAsciiCase h n && matchesCi hs ns

def findCi (haystack needle : Text) : Option Nat :=
  if needle.isEmpty then none
  else if needle.length > haystack.length then none
  else (List.range (haystack.length - needle.length + 1)).find? fun i =>
    matchesCi (haystack.drop i) needle

def phrases : List String :=
  ["run as root", "give me access", "elevate", "sudo", "disable security", "turn off the",
    "ignore the policy"]

def containsEscalationPhrase (body : Text) : Bool :=
  let lower := body.map toAsciiLowercase
  phrases.any fun p => contains lower (asBytes p)

abbrev Draft := Text × List SanitizationReason

def capLength (maxLength : Nat) (body : Text) : Option Draft :=
  if body.length > maxLength then do
    let body ← truncate body maxLength
    return (body, [.truncated])
  else some (body, [])

def stripPattern (draft : Draft) (pat : String) : Option Draft :=
  match findCi draft.1 (asBytes pat) with
  | some pos => do
    let body ← replaceRange draft.1 pos (pos + (asBytes pat).length) (asBytes "[REDACTED]")
    return (body, draft.2 ++ [.injectionPattern])
  | none => some draft

def hideText (notice : String) (reason : SanitizationReason) (draft : Draft) (pat : String) :
    Draft :=
  if contains draft.1 (asBytes pat) then
    (replace draft.1 (asBytes pat) (asBytes notice), draft.2 ++ [reason])
  else draft

def hideToolCall : Draft → String → Draft := hideText "[tool-call hidden] " .toolCallHidden

def redactMarker : Draft → String → Draft :=
  hideText "[system-prompt redacted] " .systemPromptRedacted

def SanitizationPolicy.sanitize (policy : SanitizationPolicy) (content : Content) :
    Option Sanitized := do
  let draft ← capLength policy.maxLength (asBytes content.body)
  let draft ← policy.injectionPatterns.foldlM stripPattern draft
  let draft := policy.toolCallPrefixes.foldl hideToolCall draft
  let (body, reasons) := policy.systemPromptMarkers.foldl redactMarker draft
  -- a peer's message that asks for something the peer cannot do
  if content.source == .peerMessage && policy.refuseEscalationFromPeers
      && containsEscalationPhrase body then
    return { sanitized := [], reasons := reasons ++ [.refused], verdict := .refused }
  return {
    sanitized := body
    reasons
    verdict := if reasons.isEmpty then .allow else .modified }

end Aether.Defense
