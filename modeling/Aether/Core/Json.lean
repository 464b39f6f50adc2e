import Mathlib.Data.List.Basic

/-!
# JSON values

`serde_json::Value`.  A number is kept as its text.
-/

namespace Aether.Core

inductive Json where
  | null
  | bool (b : Bool)
  | num (text : String)
  | str (s : String)
  | arr (items : List Json)
  | obj (fields : List (String × Json))

namespace Json

def field (j : Json) (key : String) : Json :=
  match j with
  | .obj fields => ((fields.find? fun f => f.1 = key).map Prod.snd).getD .null
  | _ => .null

def get (j : Json) (key : String) : Option Json :=
  match j with
  | .obj fields => (fields.find? fun f => f.1 = key).map Prod.snd
  | _ => none

def asStr : Json → Option String
  | .str s => some s
  | _ => none

def asArray : Json → Option (List Json)
  | .arr items => some items
  | _ => none

def asBool : Json → Option Bool
  | .bool b => some b
  | _ => none

def parseU64 (text : List Char) : Option UInt64 :=
  if !text.isEmpty && text.all Char.isDigit then
    let n := text.foldl (fun n c => 10 * n + (c.toNat - '0'.toNat)) 0
    if n < UInt64.size then some (UInt64.ofNat n) else none
  else none

def asU64 : Json → Option UInt64
  | .num text => parseU64 text.toList
  | _ => none

def containsKey (fields : List (String × Json)) (key : String) : Bool :=
  fields.any fun f => f.1 = key

def insert (fields : List (String × Json)) (key : String) (value : Json) : List (String × Json) :=
  if containsKey fields key then fields.map fun f => if f.1 = key then (key, value) else f
  else
    fields.takeWhile (fun f => f.1 < key) ++ (key, value) :: fields.dropWhile (fun f => f.1 < key)

def ofNat (n : ℕ) : Json := .num (toString n)

def ofOption (f : α → Json) : Option α → Json
  | some a => f a
  | none => .null

end Json

/-!
## UUIDs and their text form

The sixteen bytes of a UUID, and the hyphenated lowercase text
`xxxxxxxx-xxxx-xxxx-xxxx-xxxxxxxxxxxx` with its parser.
-/

structure Uuid where
  bytes : Vector UInt8 16
  deriving DecidableEq

namespace Uuid

def hexChar (n : ℕ) : Char := "0123456789abcdef".toList.getD n '0'

def hexByte (b : UInt8) : List Char := [hexChar (b.toNat / 16), hexChar (b.toNat % 16)]

def hexValue (c : Char) : Option ℕ := "0123456789abcdef".toList.idxOf? c

def unhex : List Char → Option (List UInt8)
  | [] => some []
  | [_] => none
  | c :: d :: cs =>
    match hexValue c, hexValue d with
    | some x, some y => (unhex cs).map (UInt8.ofNat (16 * x + y) :: ·)
    | _, _ => none

def hyphenate (cs : List Char) : List Char :=
  cs.take 8 ++ '-' :: (cs.drop 8).take 4 ++ '-' :: (cs.drop 12).take 4 ++
    '-' :: (cs.drop 16).take 4 ++ '-' :: cs.drop 20

def hyphenated (u : Uuid) : String :=
  String.ofList (hyphenate (u.bytes.toList.flatMap hexByte))

def parseHyphenated (s : String) : Except String Uuid :=
  match unhex (s.toList.filter (· ≠ '-')) with
  | none => .error "invalid character"
  | some bytes =>
    if h : bytes.length = 16 then .ok ⟨⟨bytes.toArray, by simpa using h⟩⟩
    else .error "invalid length"

open List

lemma hexValue_hexChar {n : ℕ} (hn : n < 16) : hexValue (hexChar n) = some n := by
  have h : ∀ n : Fin 16, hexValue (hexChar n.1) = some n.1 := by decide
  exact h ⟨n, hn⟩

lemma unhex_hexByte (b : UInt8) (cs : List Char) :
    unhex (hexByte b ++ cs) = (unhex cs).map (b :: ·) := by
  have hlt := b.toNat_lt
  have hval : UInt8.ofNat (16 * (b.toNat / 16) + b.toNat % 16) = b := by
    rw [Nat.div_add_mod, UInt8.ofNat_toNat]
  simp only [hexByte, cons_append, nil_append, unhex,
    hexValue_hexChar (show b.toNat / 16 < 16 by omega),
    hexValue_hexChar (show b.toNat % 16 < 16 by omega), hval]

lemma unhex_flatMap_hexByte (bs : List UInt8) : unhex (bs.flatMap hexByte) = some bs := by
  induction bs with
  | nil => rfl
  | cons b bs ih => rw [flatMap_cons, unhex_hexByte, ih, Option.map_some]

lemma ne_hyphen_of_mem_hexByte {b : UInt8} {c : Char} (h : c ∈ hexByte b) : c ≠ '-' := by
  have hchar : ∀ n : Fin 16, hexChar n.1 ≠ '-' := by decide
  simp only [hexByte, mem_cons, not_mem_nil, or_false] at h
  have hlt := b.toNat_lt
  rcases h with rfl | rfl
  · exact hchar ⟨b.toNat / 16, by omega⟩
  · exact hchar ⟨b.toNat % 16, by omega⟩

lemma filter_hyphenate {cs : List Char} (h : ∀ c ∈ cs, c ≠ '-') :
    (hyphenate cs).filter (· ≠ '-') = cs := by
  have hkeep : ∀ l, l ⊆ cs → l.filter (fun c => decide (c ≠ '-')) = l := by
    intro l hl
    exact filter_eq_self.mpr fun c hc => decide_eq_true (h c (hl hc))
  have htake : ∀ i j, ((cs.drop i).take j).filter (fun c => decide (c ≠ '-')) =
      (cs.drop i).take j :=
    fun i j => hkeep _ fun c hc => mem_of_mem_drop (mem_of_mem_take hc)
  have hcons : ∀ l : List Char, ('-' :: l).filter (fun c => decide (c ≠ '-')) =
      l.filter fun c => decide (c ≠ '-') := fun l => filter_cons_of_neg (by decide)
  have hdrop : ∀ i, (cs.drop i).take 4 ++ cs.drop (i + 4) = cs.drop i := by
    intro i
    rw [← drop_drop, take_append_drop]
  rw [hyphenate]
  simp only [append_assoc, cons_append, filter_append, hcons, htake]
  rw [hkeep _ (take_subset 8 cs), hkeep _ (drop_subset 20 cs), hdrop 16, hdrop 12,
    hdrop 8, take_append_drop]

lemma parseHyphenated_hyphenated (u : Uuid) : parseHyphenated u.hyphenated = .ok u := by
  have hfil : (hyphenate (u.bytes.toList.flatMap hexByte)).filter (· ≠ '-') =
      u.bytes.toList.flatMap hexByte := by
    refine filter_hyphenate fun c hc => ?_
    obtain ⟨b, -, hb⟩ := mem_flatMap.mp hc
    exact ne_hyphen_of_mem_hexByte hb
  rw [parseHyphenated, hyphenated, String.toList_ofList, hfil, unhex_flatMap_hexByte]
  show (if h : u.bytes.toList.length = 16 then _ else _) = _
  rw [dif_pos (by simp)]
  rfl

lemma length_flatMap_hexByte (bs : List UInt8) : (bs.flatMap hexByte).length = 2 * bs.length := by
  induction bs with
  | nil => rfl
  | cons b bs ih =>
    rw [flatMap_cons, length_append, ih, length_cons]
    show 2 + 2 * bs.length = 2 * (bs.length + 1)
    omega

lemma length_hyphenated (u : Uuid) : u.hyphenated.length = 36 := by
  have hdig : (u.bytes.toList.flatMap hexByte).length = 32 := by
    rw [length_flatMap_hexByte, Vector.length_toList]
  rw [hyphenated, String.length_ofList]
  simp only [hyphenate, length_append, length_cons, length_take, length_drop,
    hdig]
  omega

end Uuid

end Aether.Core
