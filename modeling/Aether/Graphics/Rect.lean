import Aether.Algorithm.Painted
import Mathlib.Algebra.Order.Group.Unbundled.Int

/-!
# Filled rectangles (`aether-renderer/src/lib.rs`, `aether-graphical-shell/src/fb.rs`)

The two `rect` differ in how the first byte of a row is computed.  `none` stands for a panic, of an
overflowing operation or of a slice out of range.
-/

namespace Aether.Graphics

def addI64 (a b : ℤ) : Option ℤ :=
  if -9223372036854775808 ≤ a + b ∧ a + b < 9223372036854775808 then some (a + b) else none

def mulU32 (a b : ℕ) : Option ℕ := if a * b < 4294967296 then some (a * b) else none

def asU32 (n : ℤ) : ℕ := (n % 4294967296).toNat

structure Color where
  r : UInt8
  g : UInt8
  b : UInt8
  deriving DecidableEq

def pixel (c : Color) : List UInt8 := [c.b, c.g, c.r, 0xFF]

structure PixelBuffer where
  width : UInt32
  height : UInt32
  stride : UInt32
  data : List UInt8
  deriving DecidableEq

structure Screen where
  width : UInt32
  height : UInt32
  stride : UInt32
  buf : List UInt8
  deriving DecidableEq

def paintChunks (px : List UInt8) : List UInt8 → List UInt8
  | _ :: _ :: _ :: _ :: rest => px ++ paintChunks px rest
  | rest => rest

def paintSlice (px data : List UInt8) (lo hi : ℕ) : Option (List UInt8) :=
  if lo ≤ hi ∧ hi ≤ data.length then
    some (data.take lo ++ paintChunks px ((data.drop lo).take (hi - lo)) ++ data.drop hi)
  else none

def rows (a b : ℤ) : List ℤ := (List.range (b - a).toNat).map fun (k : ℕ) => a + k

def fillRow (base : ℤ → Option ℕ) (width : UInt32) (px : List UInt8) (x : Int64) (w : UInt32)
    (data : List UInt8) (row : ℤ) : Option (List UInt8) := do
  let start ← mulU32 (asU32 (max x.toInt 0)) 4
  let right ← addI64 x.toInt w.toNat
  let stop ← mulU32 (asU32 (min right width.toNat)) 4
  if stop ≤ start then some data
  else
    let base ← base row
    paintSlice px data (base + start) (base + stop)

def fillRect (base : ℤ → Option ℕ) (width height : UInt32) (px : List UInt8) (x y : Int64)
    (w h : UInt32) (data : List UInt8) : Option (List UInt8) := do
  let bottom ← addI64 y.toInt h.toNat
  (rows (max y.toInt 0) (min bottom height.toNat)).foldlM (fillRow base width px x w) data

def PixelBuffer.rect (b : PixelBuffer) (x y : Int64) (w h : UInt32) (c : Color) :
    Option PixelBuffer :=
  (fillRect (fun row => mulU32 (asU32 row) b.stride.toNat) b.width b.height (pixel c) x y w h
    b.data).map fun data => { b with data }

def Screen.rect (s : Screen) (x y : Int64) (w h : UInt32) (c : Color) : Option Screen :=
  (fillRect (fun row => some (row.toNat * s.stride.toNat)) s.width s.height (pixel c) x y w h
    s.buf).map fun buf => { s with buf }

/-!
## What a filled rectangle sets

The casts to `u32` go wrong where the right edge is negative or the left edge is far to the right,
and the sums of `i64` may overflow.
-/

open List

def Visible (size : ℕ) (x : ℤ) (w col : ℕ) : Prop := col < size ∧ x ≤ col ∧ (col : ℤ) < x + w

def OnRect (width height : ℕ) (x y : ℤ) (w h col row : ℕ) : Prop :=
  Visible width x w col ∧ Visible height y h row

/-- The pixels of the rectangle that are on the screen are set, and no other byte changes. -/
structure Drawn (width height stride : UInt32) (px : List UInt8) (x y : Int64) (w h : UInt32)
    (data data' : List UInt8) : Prop where
  length_eq : data'.length = data.length
  pixels : ∀ col row k, OnRect width.toNat height.toNat x.toInt y.toInt w.toNat h.toNat col row →
    k < 4 → data'[row * stride.toNat + 4 * col + k]? = px[k]?
  others : ∀ i, (∀ col row k,
    OnRect width.toNat height.toNat x.toInt y.toInt w.toNat h.toNat col row → k < 4 →
      i ≠ row * stride.toNat + 4 * col + k) → data'[i]? = data[i]?

def ColumnsFit (width : ℕ) (x : ℤ) (w : ℕ) : Prop :=
  x + w < 9223372036854775808 ∧
    if x + w < 0 then (x + w) % 4294967296 = 0
    else x < 1073741824 ∨
      4294967296 ≤ x ∧ width ≤ x % 4294967296 ∧ x % 4294967296 < 1073741824

/-- No edge that is computed overflows or is cast to another number. -/
def RectFits (width height : ℕ) (x y : ℤ) (w h : ℕ) : Prop :=
  y + h < 9223372036854775808 ∧ (max y 0 < min (y + h) height → ColumnsFit width x w)

lemma addI64_eq_some {a b : ℤ} (ha : -9223372036854775808 ≤ a) (hb : 0 ≤ b)
    (h : a + b < 9223372036854775808) : addI64 a b = some (a + b) := by
  rw [addI64, if_pos]
  omega

lemma addI64_eq_none {a b : ℤ} (h : ¬ a + b < 9223372036854775808) : addI64 a b = none := by
  rw [addI64, if_neg]
  omega

lemma mulU32_asU32_eq_some {n : ℤ} (h : n % 4294967296 < 1073741824) :
    mulU32 (asU32 n) 4 = some (4 * (n % 4294967296).toNat) := by
  rw [mulU32, asU32, if_pos (by omega), Nat.mul_comm]

lemma mulU32_asU32_eq_none {n : ℤ} (h : ¬ n % 4294967296 < 1073741824) :
    mulU32 (asU32 n) 4 = none := by
  rw [mulU32, asU32, if_neg (by omega)]

section Slices

variable {px l data data' : List UInt8} {v : ℕ → UInt8} {lo hi : ℕ}

lemma length_paintChunks (hpx : px.length = 4) (l : List UInt8) :
    (paintChunks px l).length = l.length := by
  fun_induction paintChunks px l with
  | case1 a b c d rest ih =>
    rw [length_append, ih, hpx]
    simp only [length_cons]
    omega
  | case2 l hsh => rfl

lemma getElem?_paintChunks (hpx : px.length = 4) (hl : l.length % 4 = 0) {j : ℕ}
    (hj : j < l.length) : (paintChunks px l)[j]? = px[j % 4]? := by
  fun_induction paintChunks px l generalizing j with
  | case1 a b c d rest ih =>
    simp only [length_cons] at hl hj
    by_cases hfst : j < 4
    · rw [getElem?_append_left (by omega), Nat.mod_eq_of_lt hfst]
    · rw [getElem?_append_right (by omega), hpx, ih (by omega) (by omega)]
      congr 1
      omega
  | case2 l hsh =>
    -- a list without four elements whose length is divisible by four
    exfalso
    match l, hsh with
    | [], _ => exact Nat.not_lt_zero j hj
    | [_], _ | [_, _], _ | [_, _, _], _ => simp at hl
    | a :: b :: c :: d :: rest, hsh => exact hsh a b c d rest rfl

lemma exists_paintSlice (px : List UInt8) (hle : lo ≤ hi) (hhi : hi ≤ data.length) :
    ∃ data', paintSlice px data lo hi = some data' :=
  ⟨_, if_pos ⟨hle, hhi⟩⟩

lemma painted_of_paintSlice (hpx : px.length = 4) (hmod : (hi - lo) % 4 = 0)
    (hv : ∀ i, lo ≤ i → i < hi → px[(i - lo) % 4]? = some (v i))
    (h : paintSlice px data lo hi = some data') : Painted (Set.Ico lo hi) v data data' := by
  rw [paintSlice] at h
  split_ifs at h with hbou
  obtain ⟨hle, hhi⟩ := hbou
  cases h
  have hsli : ((data.drop lo).take (hi - lo)).length = hi - lo := by
    rw [length_take, length_drop]
    omega
  have hlen : (paintChunks px ((data.drop lo).take (hi - lo))).length = hi - lo :=
    (length_paintChunks hpx _).trans hsli
  have hend : lo + (paintChunks px ((data.drop lo).take (hi - lo))).length = hi := by
    rw [hlen, Nat.add_sub_cancel' hle]
  have hval : ∀ j < (paintChunks px ((data.drop lo).take (hi - lo))).length,
      (paintChunks px ((data.drop lo).take (hi - lo)))[j]? = some (v (lo + j)) := by
    intro j hj
    rw [getElem?_paintChunks hpx (by rw [hsli]; exact hmod) (by omega),
      ← hv (lo + j) (Nat.le_add_right ..) (by omega), Nat.add_sub_cancel_left]
  have hpai := painted_splice (by omega : lo + _ ≤ data.length) hval
  rwa [hend] at hpai

end Slices

def startOf (x : ℤ) : ℕ := 4 * (max x 0 % 4294967296).toNat

def stopOf (width : ℕ) (x : ℤ) (w : ℕ) : ℕ := 4 * (min (x + w) width % 4294967296).toNat

def EdgesFit (width : ℕ) (x : ℤ) (w : ℕ) : Prop :=
  x + w < 9223372036854775808 ∧ max x 0 % 4294967296 < 1073741824 ∧
    min (x + w) width % 4294967296 < 1073741824

variable {width w : ℕ} {x : ℤ}

lemma ColumnsFit.edgesFit (hwd : width < 1073741824) (h : ColumnsFit width x w) :
    EdgesFit width x w := by
  obtain ⟨hsum, hclip⟩ := h
  refine ⟨hsum, ?_, ?_⟩
  · split_ifs at hclip <;> omega
  · split_ifs at hclip <;> omega

lemma ColumnsFit.mem_iff (hwd : width < 1073741824) (h : ColumnsFit width x w) (j : ℕ) :
    startOf x ≤ j ∧ j < stopOf width x w ↔ Visible width x w (j / 4) := by
  obtain ⟨-, hclip⟩ := h
  unfold startOf stopOf Visible
  split_ifs at hclip <;> omega

lemma start_lt_stop_of_not_columnsFit (hwd : width < 1073741824)
    (hedg : EdgesFit width x w) (h : ¬ ColumnsFit width x w) :
    startOf x < stopOf width x w ∧ ∀ col, ¬ Visible width x w col := by
  obtain ⟨hsum, hleft, hri⟩ := hedg
  have hclip := not_and.mp h hsum
  unfold startOf stopOf Visible
  split_ifs at hclip <;> constructor <;> intros <;> omega

section Row

variable {base : ℤ → Option ℕ} {width w : UInt32} {px data data' : List UInt8} {x : Int64} {row : ℤ}

lemma fillRow_eq (hedg : EdgesFit width.toNat x.toInt w.toNat) :
    fillRow base width px x w data row =
      if stopOf width.toNat x.toInt w.toNat ≤ startOf x.toInt then some data
      else (base row).bind fun b =>
        paintSlice px data (b + startOf x.toInt) (b + stopOf width.toNat x.toInt w.toNat) := by
  obtain ⟨hsum, hleft, hri⟩ := hedg
  have hx : -9223372036854775808 ≤ x.toInt := x.le_toInt
  rw [fillRow, mulU32_asU32_eq_some hleft, addI64_eq_some hx (Int.natCast_nonneg _) hsum]
  simp only [Option.bind_eq_bind, Option.bind_some]
  rw [mulU32_asU32_eq_some hri, Option.bind_some]
  rfl

lemma fillRow_eq_none (hedg : ¬ EdgesFit width.toNat x.toInt w.toNat) :
    fillRow base width px x w data row = none := by
  have hx : -9223372036854775808 ≤ x.toInt := x.le_toInt
  rw [fillRow]
  by_cases hleft : max x.toInt 0 % 4294967296 < 1073741824
  · rw [mulU32_asU32_eq_some hleft]
    by_cases hsum : x.toInt + w.toNat < 9223372036854775808
    · have hri : ¬ min (x.toInt + w.toNat) width.toNat % 4294967296 < 1073741824 :=
        fun hri => hedg ⟨hsum, hleft, hri⟩
      rw [addI64_eq_some hx (Int.natCast_nonneg _) hsum]
      simp only [Option.bind_eq_bind, Option.bind_some]
      rw [mulU32_asU32_eq_none hri, Option.bind_none]
    · rw [addI64_eq_none hsum]
      rfl
  · rw [mulU32_asU32_eq_none hleft]
    rfl

def rowCells (width w : UInt32) (x : Int64) (b : ℕ) : Set ℕ :=
  Set.Ico (b + startOf x.toInt) (b + stopOf width.toNat x.toInt w.toNat)

lemma painted_of_fillRow {v : ℕ → UInt8} {b : ℕ} (hpx : px.length = 4) (hbase : base row = some b)
    (hv : ∀ j, startOf x.toInt ≤ j → j < stopOf width.toNat x.toInt w.toNat →
      px[j % 4]? = some (v (b + j)))
    (h : fillRow base width px x w data row = some data') :
    Painted (rowCells width w x b) v data data' := by
  by_cases hedg : EdgesFit width.toNat x.toInt w.toNat
  · rw [fillRow_eq hedg, hbase] at h
    split_ifs at h with hle
    · cases h
      have hemp : rowCells width w x b = ∅ := Set.Ico_eq_empty (by omega)
      rw [hemp]
      exact .refl v data
    · refine painted_of_paintSlice hpx ?_ ?_ h
      · unfold startOf stopOf
        omega
      · intro i hlo hhi
        obtain ⟨j, rfl⟩ := Nat.exists_eq_add_of_le (Nat.le_of_add_right_le hlo)
        rw [← hv j (by omega) (by omega)]
        have hmod : (b + j - (b + startOf x.toInt)) % 4 = j % 4 := by
          unfold startOf at hlo ⊢
          omega
        rw [hmod]
  · rw [fillRow_eq_none hedg] at h
    cases h

end Row

lemma mem_rows_iff {height h : ℕ} {y r : ℤ} :
    r ∈ rows (max y 0) (min (y + h) height) ↔ ∃ row : ℕ, r = row ∧ Visible height y h row := by
  unfold rows Visible
  rw [mem_map]
  constructor
  · rintro ⟨k, hk, rfl⟩
    rw [mem_range] at hk
    exact ⟨(max y 0 + k).toNat, by omega, by omega⟩
  · rintro ⟨row, rfl, hrow⟩
    exact ⟨(row - max y 0).toNat, mem_range.mpr (by omega), by omega⟩

section Rect

variable {base : ℤ → Option ℕ} {width height stride w h : UInt32} {x y : Int64}
  {px data data' : List UInt8}

/-- The rows begin at the multiples of the stride. -/
def Strided (base : ℤ → Option ℕ) (height stride : UInt32) : Prop :=
  ∀ row : ℕ, row < height.toNat → base row = some (row * stride.toNat)

lemma painted_of_foldlM {v : ℕ → UInt8} (hpx : px.length = 4) (hbase : Strided base height stride)
    (hv : ∀ row j : ℕ, startOf x.toInt ≤ j → j < stopOf width.toNat x.toInt w.toNat →
      px[j % 4]? = some (v (row * stride.toNat + j)))
    (hloop : (rows (max y.toInt 0) (min (y.toInt + h.toNat) height.toNat)).foldlM
      (fillRow base width px x w) data = some data') :
    Painted (⋃ r ∈ rows (max y.toInt 0) (min (y.toInt + h.toNat) height.toNat),
      rowCells width w x (r.toNat * stride.toNat)) v data data' := by
  refine painted_foldlM hloop fun r hr data data' hfill => ?_
  obtain ⟨row, rfl, hvis⟩ := mem_rows_iff.mp hr
  exact painted_of_fillRow hpx (hbase row hvis.1) (hv row) hfill

lemma mem_cells_iff (hwd : width.toNat < 1073741824)
    (hfit : ColumnsFit width.toNat x.toInt w.toNat) (i : ℕ) :
    i ∈ ⋃ r ∈ rows (max y.toInt 0) (min (y.toInt + h.toNat) height.toNat),
        rowCells width w x (r.toNat * stride.toNat) ↔
      ∃ col row k, OnRect width.toNat height.toNat x.toInt y.toInt w.toNat h.toNat col row ∧
        k < 4 ∧ i = row * stride.toNat + 4 * col + k := by
  rw [Set.mem_iUnion₂]
  constructor
  · rintro ⟨r, hr, hlo, hhi⟩
    obtain ⟨row, rfl, hrow⟩ := mem_rows_iff.mp hr
    rw [Int.toNat_natCast] at hlo hhi
    obtain ⟨j, rfl⟩ := Nat.exists_eq_add_of_le (Nat.le_of_add_right_le hlo)
    have hcol := (hfit.mem_iff hwd j).mp ⟨by omega, by omega⟩
    exact ⟨j / 4, row, j % 4, ⟨hcol, hrow⟩, Nat.mod_lt _ (by omega), by omega⟩
  · rintro ⟨col, row, k, ⟨hcol, hrow⟩, hk, rfl⟩
    have hdiv : (4 * col + k) / 4 = col := by omega
    obtain ⟨hlo, hhi⟩ := (hfit.mem_iff hwd (4 * col + k)).mpr (hdiv.symm ▸ hcol)
    refine ⟨row, mem_rows_iff.mpr ⟨row, rfl, hrow⟩, ?_⟩
    rw [Int.toNat_natCast, rowCells, Nat.add_assoc]
    exact ⟨Nat.add_le_add_left hlo _, Nat.add_lt_add_left hhi _⟩

lemma stop_le_stride (hrow : 4 * width.toNat ≤ stride.toNat) (hwd : width.toNat < 1073741824)
    (hfit : ColumnsFit width.toNat x.toInt w.toNat) {j : ℕ} (hsta : startOf x.toInt ≤ j)
    (hj : j < stopOf width.toNat x.toInt w.toNat) : j < stride.toNat := by
  obtain ⟨hcol, -, -⟩ := (hfit.mem_iff hwd j).mp ⟨hsta, hj⟩
  omega

lemma exists_fillRow (hrow : 4 * width.toNat ≤ stride.toNat) (hwd : width.toNat < 1073741824)
    (hfit : ColumnsFit width.toNat x.toInt w.toNat) {row : ℕ} (hvis : row < height.toNat)
    (hbase : base row = some (row * stride.toNat))
    (hdata : stride.toNat * height.toNat ≤ data.length) :
    ∃ data', fillRow base width px x w data row = some data' := by
  rw [fillRow_eq (hfit.edgesFit hwd), hbase]
  split_ifs with hle
  · exact ⟨data, rfl⟩
  · refine exists_paintSlice px (by omega) ?_
    have hstop : stopOf width.toNat x.toInt w.toNat - 1 < stride.toNat :=
      stop_le_stride hrow hwd hfit (by omega) (by omega)
    calc row * stride.toNat + stopOf width.toNat x.toInt w.toNat
        ≤ row * stride.toNat + stride.toNat := by omega
      _ = (row + 1) * stride.toNat := (Nat.succ_mul ..).symm
      _ ≤ height.toNat * stride.toNat := Nat.mul_le_mul_right _ hvis
      _ ≤ data.length := by rwa [Nat.mul_comm]

def cellValue (stride : UInt32) (px : List UInt8) (i : ℕ) : UInt8 :=
  px.getD (i % stride.toNat % 4) 0

lemma getElem?_eq_cellValue (hpx : px.length = 4) {row j : ℕ} (hj : j < stride.toNat) :
    px[j % 4]? = some (cellValue stride px (row * stride.toNat + j)) := by
  have hpla : (row * stride.toNat + j) % stride.toNat = j := by
    rw [Nat.add_comm, Nat.add_mul_mod_self_right, Nat.mod_eq_of_lt hj]
  have hlt : j % 4 < px.length := by
    rw [hpx]
    exact Nat.mod_lt _ (by omega)
  rw [cellValue, hpla, getD_eq_getElem?_getD, getElem?_eq_getElem hlt]
  rfl

lemma fillRect_eq (hbot : y.toInt + h.toNat < 9223372036854775808) :
    fillRect base width height px x y w h data =
      (rows (max y.toInt 0) (min (y.toInt + h.toNat) height.toNat)).foldlM
        (fillRow base width px x w) data := by
  rw [fillRect, addI64_eq_some y.le_toInt (Int.natCast_nonneg _) hbot]
  rfl

lemma drawn_of_no_rows
    (hrows : ¬ max y.toInt 0 < min (y.toInt + h.toNat) height.toNat) :
    (rows (max y.toInt 0) (min (y.toInt + h.toNat) height.toNat)).foldlM
        (fillRow base width px x w) data = some data ∧
      Drawn width height stride px x y w h data data := by
  have hnil : rows (max y.toInt 0) (min (y.toInt + h.toNat) height.toNat) = [] := by
    rw [rows, Int.toNat_of_nonpos (by omega)]
    rfl
  rw [hnil]
  refine ⟨rfl, rfl, ?_, fun _ _ => rfl⟩
  rintro col row k ⟨-, hrow⟩
  unfold Visible at hrow
  omega

lemma exists_drawn (hpx : px.length = 4) (hrow : 4 * width.toNat ≤ stride.toNat)
    (hbase : Strided base height stride)
    (hfit : RectFits width.toNat height.toNat x.toInt y.toInt w.toNat h.toNat)
    (hdata : stride.toNat * height.toNat ≤ data.length) :
    ∃ data', fillRect base width height px x y w h data = some data' ∧
      Drawn width height stride px x y w h data data' := by
  have hwd : width.toNat < 1073741824 := by
    have := stride.toNat_lt
    omega
  obtain ⟨hbot, hcolu⟩ := hfit
  rw [fillRect_eq hbot]
  by_cases hrows : max y.toInt 0 < min (y.toInt + h.toNat) height.toNat
  · have hfit := hcolu hrows
    have hv : ∀ row j : ℕ, startOf x.toInt ≤ j → j < stopOf width.toNat x.toInt w.toNat →
        px[j % 4]? = some (cellValue stride px (row * stride.toNat + j)) :=
      fun row j hsta hstop =>
        getElem?_eq_cellValue hpx (stop_le_stride hrow hwd hfit hsta hstop)
    obtain ⟨data', hloop, hpai⟩ := exists_painted_foldlM
        (S := fun r : ℤ => rowCells width w x (r.toNat * stride.toNat)) hdata
        fun r hr data hlen => by
      obtain ⟨row, rfl, hvis⟩ := mem_rows_iff.mp hr
      obtain ⟨data', hfill⟩ : ∃ data', fillRow base width px x w data row = some data' :=
        exists_fillRow hrow hwd hfit hvis.1 (hbase row hvis.1) hlen
      exact ⟨data', hfill, painted_of_fillRow hpx (hbase row hvis.1) (hv row) hfill⟩
    refine ⟨data', hloop, hpai.length_eq, ?_, ?_⟩
    · intro col row k hon hk
      rw [hpai.inside _ ((mem_cells_iff hwd hfit _).mpr ⟨col, row, k, hon, hk, rfl⟩),
        Nat.add_assoc]
      have hcol : col < width.toNat := hon.1.1
      rw [← getElem?_eq_cellValue hpx (by omega)]
      congr 1
      omega
    · intro i hi
      refine hpai.outside i fun hmem => ?_
      obtain ⟨col, row, k, hon, hk, heq⟩ := (mem_cells_iff hwd hfit i).mp hmem
      exact hi col row k hon hk heq
  · exact ⟨data, drawn_of_no_rows hrows⟩

lemma getElem?_white {k : ℕ} (hk : k < 4) : (pixel ⟨255, 255, 255⟩)[k]? = some 255 := by
  have hwhi : pixel ⟨255, 255, 255⟩ = replicate 4 255 := rfl
  rw [hwhi, getElem?_replicate, if_pos hk]

lemma not_drawn_of_not_fits (hrow : 4 * width.toNat ≤ stride.toNat)
    (hbase : Strided base height stride)
    (hfit : ¬ RectFits width.toNat height.toNat x.toInt y.toInt w.toNat h.toNat) (n : ℕ) :
    ¬ ∃ data', fillRect base width height (pixel ⟨255, 255, 255⟩) x y w h (List.replicate n 0) =
        some data' ∧
      Drawn width height stride (pixel ⟨255, 255, 255⟩) x y w h (List.replicate n 0) data' := by
  rintro ⟨data', hrun, hdra⟩
  have hwd : width.toNat < 1073741824 := by
    have := stride.toNat_lt
    omega
  by_cases hbot : y.toInt + h.toNat < 9223372036854775808
  · rw [fillRect_eq hbot] at hrun
    obtain ⟨hrows, hcol⟩ := Classical.not_imp.mp (not_and.mp hfit hbot)
    -- the first visible row
    have hfst : Visible height.toNat y.toInt h.toNat (max y.toInt 0).toNat := by
      unfold Visible
      omega
    have hmem := mem_rows_iff.mpr ⟨_, rfl, hfst⟩
    by_cases hedg : EdgesFit width.toNat x.toInt w.toNat
    · obtain ⟨hlt, hnone⟩ := start_lt_stop_of_not_columnsFit hwd hedg hcol
      have hpai := painted_of_foldlM (v := fun _ => 255) rfl hbase
        (fun row j _ _ => getElem?_white (Nat.mod_lt j (by omega))) hrun
      set i := (max y.toInt 0).toNat * stride.toNat + startOf x.toInt
      have hwhi : data'[i]? = some 255 := by
        refine hpai.inside i (Set.mem_iUnion₂.mpr ⟨_, hmem, ?_⟩)
        exact ⟨Nat.le_refl _, Nat.add_lt_add_left hlt _⟩
      have hbla := hdra.others i fun col row k hon => absurd hon.1 (hnone col)
      rw [hwhi] at hbla
      have hcell := mem_of_getElem? hbla.symm
      exact absurd (eq_of_mem_replicate hcell) (by decide)
    · -- the first round panics
      obtain ⟨r, rest, hrest⟩ := exists_cons_of_ne_nil (ne_nil_of_mem hmem)
      rw [hrest, foldlM_cons, fillRow_eq_none hedg] at hrun
      cases hrun
  · rw [fillRect, addI64_eq_none hbot] at hrun
    cases hrun

variable (base) in
lemma fillRect_drawn_iff (hrow : 4 * width.toNat ≤ stride.toNat)
    (hbase : Strided base height stride) :
    (∀ data c, stride.toNat * height.toNat ≤ data.length →
      ∃ data', fillRect base width height (pixel c) x y w h data = some data' ∧
        Drawn width height stride (pixel c) x y w h data data') ↔
      RectFits width.toNat height.toNat x.toInt y.toInt w.toNat h.toNat := by
  constructor
  · intro hdra
    by_contra hfit
    refine not_drawn_of_not_fits hrow hbase hfit (stride.toNat * height.toNat) (hdra _ _ ?_)
    rw [length_replicate]
  · intro hfit data c hdata
    exact exists_drawn rfl hrow hbase hfit hdata

end Rect

lemma mulU32_row {height stride : UInt32} (hsize : stride.toNat * height.toNat < 4294967296)
    (row : ℕ) (hrow : row < height.toNat) :
    mulU32 (asU32 row) stride.toNat = some (row * stride.toNat) := by
  have hle : row * stride.toNat ≤ stride.toNat * height.toNat := by
    rw [Nat.mul_comm]
    exact Nat.mul_le_mul_left _ (Nat.le_of_lt hrow)
  have hcast : asU32 row = row := by
    have := height.toNat_lt
    unfold asU32
    omega
  rw [mulU32, hcast, if_pos (Nat.lt_of_le_of_lt hle hsize)]

/-- On every buffer with room for its rows, and in every colour, both functions return and set
exactly the pixels of the rectangle that are on the screen, iff the rectangle fits. -/
theorem rect_draws_iff (width height stride : UInt32) (hrow : 4 * width.toNat ≤ stride.toNat)
    (hsize : stride.toNat * height.toNat < 4294967296) (x y : Int64) (w h : UInt32) :
    ((∀ data c, stride.toNat * height.toNat ≤ data.length →
      ∃ data', (PixelBuffer.mk width height stride data).rect x y w h c =
          some ⟨width, height, stride, data'⟩ ∧
        Drawn width height stride (pixel c) x y w h data data') ↔
      RectFits width.toNat height.toNat x.toInt y.toInt w.toNat h.toNat) ∧
    ((∀ data c, stride.toNat * height.toNat ≤ data.length →
      ∃ data', (Screen.mk width height stride data).rect x y w h c =
          some ⟨width, height, stride, data'⟩ ∧
        Drawn width height stride (pixel c) x y w h data data') ↔
      RectFits width.toNat height.toNat x.toInt y.toInt w.toNat h.toNat) := by
  constructor
  · rw [← fillRect_drawn_iff (fun row => mulU32 (asU32 row) stride.toNat) hrow (mulU32_row hsize)]
    simp only [PixelBuffer.rect, Option.map_eq_some_iff, PixelBuffer.mk.injEq, true_and,
      exists_eq_right]
  · rw [← fillRect_drawn_iff (fun row => some (row.toNat * stride.toNat)) hrow fun row _ => rfl]
    simp only [Screen.rect, Option.map_eq_some_iff, Screen.mk.injEq, true_and, exists_eq_right]

theorem rect_draws_iff_corner :
    RectFits (4 : UInt32).toNat (2 : UInt32).toNat (3 : Int64).toInt (-1 : Int64).toInt
        (9 : UInt32).toNat (2 : UInt32).toNat ∧
      ∃ data', (PixelBuffer.mk 4 2 17 (List.replicate 34 0)).rect 3 (-1) 9 2 ⟨1, 2, 3⟩ =
          some ⟨4, 2, 17, data'⟩ ∧
        Drawn 4 2 17 (pixel ⟨1, 2, 3⟩) 3 (-1) 9 2 (List.replicate 34 0) data' := by
  have hfits : RectFits (4 : UInt32).toNat (2 : UInt32).toNat (3 : Int64).toInt (-1 : Int64).toInt
      (9 : UInt32).toNat (2 : UInt32).toNat := by
    unfold RectFits ColumnsFit
    decide
  exact ⟨hfits, (rect_draws_iff 4 2 17 (by decide) (by decide) 3 (-1) 9 2).1.mpr hfits _ _
    (by decide)⟩

/-- A rectangle that is wholly to the left of the screen. -/
theorem rect_left_panics :
    (PixelBuffer.mk 4 1 16 (List.replicate 16 0)).rect (-10) 0 5 1 ⟨255, 0, 0⟩ = none ∧
      (Screen.mk 4 1 16 (List.replicate 16 0)).rect (-10) 0 5 1 ⟨255, 0, 0⟩ = none := by
  decide +kernel

end Aether.Graphics
