/-
Numbers as elements.

A typed array of integers stores of a number what its element type can hold: the integer part
modulo the number of words, or the nearest byte.  Either is one integer, told by what it is and not
by how it is computed, and reading gives that integer back as a number.

* `ofLeBytes_leBytes` — a word survives its bytes;
* `Quantity.NearestByte`, `Element.Stores` — the integer that is stored of a number;
* `Element.stores_iff` — there is exactly one, that of the word;
* `Element.quantity_number` — the number that is read is that of the word;
* `Element.word_number` — what was read is stored as the same word.

Design notes: every integer of an element type is far below the 53 bits that a number holds, so
reading rounds nothing.
-/
import Mathlib
import ModuleHost.Proofs.Number.Arithmetic
import ModuleHost.Value.Bytes

namespace ModuleHost

/-! ### Words as bytes -/

/-- A word survives its bytes as far as they reach. -/
theorem ofLeBytes_leBytes (width n : ℕ) : ofLeBytes (leBytes width n) = n % 2 ^ (8 * width) := by
  induction width generalizing n with
  | zero => simp [leBytes, ofLeBytes, Nat.mod_one]
  | succ width ih =>
    have hpow : 2 ^ (8 * (width + 1)) = 256 * 2 ^ (8 * width) := by ring
    rw [leBytes, ofLeBytes, ih, hpow, Nat.mod_mul, UInt8.toNat_ofNat']

theorem ofLeBytes_lt (bytes : List UInt8) : ofLeBytes bytes < 2 ^ (8 * bytes.length) := by
  induction bytes with
  | nil => exact Nat.one_pos
  | cons b rest ih =>
    have hb : b.toNat < 256 := b.toNat_lt
    have hpow : 2 ^ (8 * (rest.length + 1)) = 256 * 2 ^ (8 * rest.length) := by ring
    rw [ofLeBytes, List.length_cons, hpow]
    omega

/-! ### The nearest integer -/

/-- The integer that is nearest to a rational number among some, the even one of two that are
equally near. -/
structure IsNearest (among : Set ℤ) (r : ℚ) (n : ℤ) : Prop where
  mem : n ∈ among
  nearest : ∀ k ∈ among, k ≠ n → |r - n| < |r - k| ∨ |r - n| = |r - k| ∧ Even n

variable {r : ℚ} {n k : ℤ}

/-- There are no two nearest ones: half-way between two that are even lies an integer. -/
theorem IsNearest.unique {low high : ℤ} (hn : IsNearest (Set.Icc low high) r n)
    (hk : IsNearest (Set.Icc low high) r k) : n = k := by
  by_contra hne
  rcases hn.nearest k hk.mem (Ne.symm hne), hk.nearest n hn.mem hne with
    ⟨hlt | ⟨heq, hn2⟩, hlt' | ⟨heq', hk2⟩⟩
  · exact lt_asymm hlt hlt'
  · exact hlt.ne heq'.symm
  · exact hlt'.ne heq.symm
  · obtain ⟨m, hm⟩ : Even (n + k) := hn2.add hk2
    have hmiddle : r = m := by
      rcases abs_eq_abs.mp heq with hsame | hopposite
      · exact absurd (by exact_mod_cast (sub_right_injective hsame : (n : ℚ) = k)) hne
      · have hsum : (n : ℚ) + k = m + m := by exact_mod_cast hm
        linarith
    have hmn : m ≠ n := by omega
    have hin : m ∈ Set.Icc low high := by
      obtain ⟨hn1, hn2⟩ := hn.mem
      obtain ⟨hk1, hk2⟩ := hk.mem
      constructor <;> omega
    have hfar : r - n ≠ 0 := by
      rw [hmiddle]
      exact_mod_cast sub_ne_zero.mpr hmn
    have hdistance := abs_pos.mpr hfar
    rcases hn.nearest m hin hmn with hlt | ⟨hzero, -⟩
    · rw [← hmiddle, sub_self, abs_zero] at hlt
      exact absurd hlt (not_lt.mpr hdistance.le)
    · rw [← hmiddle, sub_self, abs_zero] at hzero
      exact hdistance.ne' hzero

/-- What is no further than one half away is the nearest integer. -/
theorem isNearest_of_near {among : Set ℤ} (hn : n ∈ among) (hnear : |r - n| ≤ 1 / 2)
    (heven : |r - n| = 1 / 2 → Even n) : IsNearest among r n where
  mem := hn
  nearest k _ hne := by
    have hapart : (1 : ℚ) ≤ |(k : ℚ) - n| := by
      exact_mod_cast Int.one_le_abs (sub_ne_zero.mpr hne)
    have htriangle : |(k : ℚ) - n| ≤ |r - k| + |r - n| := by
      rw [abs_sub_comm r k]
      exact (abs_sub_le (k : ℚ) r n)
    rcases hnear.lt_or_eq with hlt | heq
    · exact .inl (by linarith)
    · rcases (show |r - n| ≤ |r - k| by linarith).lt_or_eq with hlt | hsame
      · exact .inl hlt
      · exact .inr ⟨hsame, heven heq⟩

/-! ### The nearest byte -/

/-- The byte that is nearest to a quantity; that of a NaN is zero. -/
def Quantity.NearestByte : Quantity → ℤ → Prop
  | nan, n => n = 0
  | infinite negative, n => n = if negative then 0 else 255
  | rational r, n => IsNearest (Set.Icc 0 255) r n

theorem Quantity.NearestByte.unique {x : Quantity} (hn : x.NearestByte n) (hk : x.NearestByte k) :
    n = k := by
  cases x with
  | nan => exact Eq.trans hn (Eq.symm hk)
  | infinite => exact Eq.trans hn (Eq.symm hk)
  | rational r => exact IsNearest.unique hn hk

namespace Double

variable {x : Double}

/-- The steps by which a number is rounded give a whole number that is no further than one half
away, and an even one if it is as far. -/
theorem exists_quantity_nearest (hx : x.quantity = .rational r) (h0 : 0 ≤ r) (h255 : r < 255) :
    ∃ n : ℤ, x.nearest.quantity = .rational n ∧ |r - n| ≤ 1 / 2 ∧ (|r - n| = 1 / 2 → Even n) := by
  have hfloor := quantity_floor hx
  have hdifference := quantity_sub hx hfloor (fits_fract hx h0)
  have hhalf : (ofScaled false 1 (-1)).quantity = .rational (1 / 2) := by
    rw [quantity_ofScaled (by decide) (by decide) (by decide)]
    norm_num [signFactor]
  have hlow : 0 ≤ ⌊r⌋ := Int.floor_nonneg.mpr h0
  have hhigh : ⌊r⌋ < 255 := Int.floor_lt.mpr (by exact_mod_cast h255)
  have hone : (ofNat 1).quantity = .rational ((1 : ℕ) : ℚ) := quantity_ofNat (by decide)
  have hnext : (x.floor.add (ofNat 1)).quantity = .rational ((⌊r⌋ + 1 : ℤ) : ℚ) := by
    have hfits : Fits ((⌊r⌋ + 1 : ℤ) : ℚ) := fits_intCast (by omega)
    have hcast : ((⌊r⌋ + 1 : ℤ) : ℚ) = (⌊r⌋ : ℚ) + (1 : ℕ) := by push_cast; rfl
    rw [hcast] at hfits ⊢
    exact quantity_add hfloor hone hfits
  have hnonneg : 0 ≤ r - ⌊r⌋ := Int.fract_nonneg r
  have hbelow : r - (⌊r⌋ + 1 : ℤ) = -(1 - (r - ⌊r⌋)) := by push_cast; ring
  have hlt : r - ⌊r⌋ < 1 := Int.fract_lt_one r
  unfold nearest
  simp only [lt_iff hhalf hdifference, Bool.or_eq_true, lt_iff hdifference hhalf,
    rem_two_same_zero_iff hfloor hlow]
  split
  next hup =>
    refine ⟨⌊r⌋ + 1, hnext, ?_, fun heq => ?_⟩ <;>
      rw [hbelow, abs_neg, abs_of_nonneg (by linarith)] at *
    · linarith
    · linarith
  next hdown =>
    split
    next hfirst =>
      refine ⟨⌊r⌋, hfloor, ?_, fun heq => ?_⟩
      · rw [abs_of_nonneg hnonneg]
        exact not_lt.mp hdown
      · rw [abs_of_nonneg hnonneg] at heq
        exact hfirst.resolve_left heq.not_lt
    next hsecond =>
      -- half-way between an odd number and the next one
      obtain ⟨hge, hodd⟩ := not_or.mp hsecond
      have htie : r - ⌊r⌋ = 1 / 2 := le_antisymm (not_lt.mp hdown) (not_lt.mp hge)
      refine ⟨⌊r⌋ + 1, hnext, ?_, fun _ => ?_⟩
      · rw [hbelow, htie]
        norm_num
      · exact (Int.not_even_iff_odd.mp hodd).add_one

/-- A number is clamped to the nearest byte. -/
theorem nearestByte_clamped (x : Double) : x.quantity.NearestByte x.clamped := by
  have hzero : zero.quantity = .rational 0 := quantity_of_isZero rfl
  have hlast : (ofNat 255).quantity = .rational ((255 : ℕ) : ℚ) := quantity_ofNat (by decide)
  unfold clamped
  cases hx : x.quantity with
  | nan =>
    rw [isNaN_iff.mpr hx]
    rfl
  | infinite s =>
    have hnan : x.isNaN = false := by
      rw [Bool.eq_false_iff, Ne, isNaN_iff, hx]
      nofun
    rw [hnan, Bool.false_or, (le_of_infinite hx hzero).1, (le_of_infinite hx hlast).2]
    cases s <;> rfl
  | rational r =>
    have hnan : x.isNaN = false := by
      rw [Bool.eq_false_iff, Ne, isNaN_iff, hx]
      nofun
    rw [hnan, Bool.false_or]
    simp only [le_iff hx hzero, le_iff hlast hx, Nat.cast_ofNat]
    split
    next hneg =>
      -- nothing in the range is below a number that is not positive
      refine ⟨by simp, fun k hk hne => .inl ?_⟩
      have hk0 : (0 : ℚ) < k := by
        exact_mod_cast lt_of_le_of_ne hk.1 (Ne.symm hne)
      rw [Nat.cast_zero, Int.cast_zero, sub_zero, abs_of_nonpos hneg, abs_of_neg (by linarith)]
      linarith
    next hpos =>
      split
      next hbeyond =>
        refine ⟨by decide, fun k hk hne => .inl ?_⟩
        have hk255 : (k : ℚ) < 255 := by exact_mod_cast lt_of_le_of_ne hk.2 hne
        push_cast
        rw [abs_of_nonneg (by linarith), abs_of_pos (by linarith)]
        linarith
      next hinside =>
        obtain ⟨n, hn, hnear, heven⟩ := exists_quantity_nearest hx (not_le.mp hpos).le
          (not_le.mp hinside)
        have hbounds := abs_le.mp hnear
        have hn0 : 0 ≤ n := by
          have hlow : (-1 : ℚ) < n := by linarith [not_le.mp hpos]
          have hlow' : -1 < n := by exact_mod_cast hlow
          omega
        have hn255 : n ≤ 255 := by
          have hhigh : (n : ℚ) < 256 := by linarith [not_le.mp hinside]
          have hhigh' : n < 256 := by exact_mod_cast hhigh
          omega
        obtain ⟨k, rfl⟩ := Int.eq_ofNat_of_zero_le hn0
        rw [toWord_of_quantity (m := k) hn (by omega)]
        exact isNearest_of_near ⟨hn0, hn255⟩ hnear heven

/-- A number is wrapped to its integer part modulo `2 ^ 32`. -/
theorem wrapped_eq (x : Double) : (x.wrapped : ℤ) = x.quantity.integerPart % 2 ^ 32 := by
  have hsize : (ofNat (Nat.pow 2 32)).quantity = .rational ((2 ^ 32 : ℕ) : ℚ) :=
    quantity_ofNat (by decide)
  unfold wrapped
  by_cases hfinite : x.isFinite = true
  · obtain ⟨a, ha⟩ := isFinite_iff.mp hfinite
    have hmod := Int.emod_nonneg (towardZero a) (b := 2 ^ 32) (by decide)
    have hlt := Int.emod_lt_of_pos (towardZero a) (b := 2 ^ 32) (by decide)
    obtain ⟨n, hn⟩ := Int.eq_ofNat_of_zero_le hmod
    have hrest : (x.trunc.remEuclid (ofNat (Nat.pow 2 32))).quantity = .rational (n : ℚ) := by
      rw [quantity_remEuclid (quantity_trunc ha) hsize (by decide) (by decide)]
      exact congrArg (fun i : ℤ => Quantity.rational i) hn
    rw [hfinite, ha, Quantity.integerPart, hn]
    simp only [Bool.not_true, Bool.false_eq_true, if_false]
    rw [toWord_of_quantity hrest (by omega)]
  · have hnone : x.quantity.integerPart = 0 := by
      cases hx : x.quantity with
      | rational a => exact absurd (isFinite_iff.mpr ⟨a, hx⟩) hfinite
      | _ => rfl
    rw [Bool.eq_false_of_not_eq_true hfinite, hnone]
    rfl

end Double

/-! ### The integer that is stored -/

namespace Element

variable {e : Element} {x : Double} {w : ℕ}

/-- The integers of an element type. -/
def range (e : Element) : Set ℤ :=
  if e.isSigned then Set.Ico (-2 ^ (8 * e.width - 1)) (2 ^ (8 * e.width - 1))
  else Set.Ico 0 (2 ^ (8 * e.width))

/-- What integer is stored of a number: the nearest byte, or the integer of the type that is its
integer part modulo the number of words. -/
def Stores (e : Element) (x : Double) (n : ℤ) : Prop :=
  if e = .uint8Clamped then x.quantity.NearestByte n
  else n ∈ e.range ∧ n ≡ x.quantity.integerPart [ZMOD 2 ^ (8 * e.width)]

/-- The integer of a word. -/
def integer (e : Element) (w : ℕ) : ℤ := if e.isSigned then signedWord e.width w else w

theorem two_pow_width (e : Element) : (2 : ℤ) ^ (8 * e.width) = 2 * 2 ^ (8 * e.width - 1) := by
  rw [← pow_succ', Nat.sub_add_cancel]
  exact Nat.mul_pos (by decide) e.width_pos

theorem integer_mem (hw : w < 2 ^ (8 * e.width)) : e.integer w ∈ e.range := by
  have hsize := e.two_pow_width
  have hpos : (0 : ℤ) < 2 ^ (8 * e.width) := by positivity
  unfold integer range
  split
  · have hlow := Int.le_bmod (x := w) (m := Nat.pow 2 (8 * e.width)) (Nat.two_pow_pos _)
    have hhigh := Int.bmod_lt (x := w) (m := Nat.pow 2 (8 * e.width)) (Nat.two_pow_pos _)
    have hcast : ((Nat.pow 2 (8 * e.width) : ℕ) : ℤ) = 2 ^ (8 * e.width) := Nat.cast_pow 2 _
    rw [hcast, hsize] at hlow hhigh
    constructor
    · exact le_trans (by omega) hlow
    · exact lt_of_lt_of_le hhigh (by omega)
  · exact ⟨Int.natCast_nonneg w, by exact_mod_cast hw⟩

theorem integer_modEq (e : Element) (w : ℕ) : e.integer w ≡ w [ZMOD 2 ^ (8 * e.width)] := by
  unfold integer
  split
  · have hcast : ((Nat.pow 2 (8 * e.width) : ℕ) : ℤ) = 2 ^ (8 * e.width) := Nat.cast_pow 2 _
    rw [Int.ModEq, signedWord, ← hcast, Int.bmod_emod]
  · exact Int.ModEq.refl _

/-- The integers of an element type are told apart by their words. -/
theorem eq_of_modEq {j : ℤ} (hn : n ∈ e.range) (hj : j ∈ e.range)
    (h : n ≡ j [ZMOD 2 ^ (8 * e.width)]) : n = j := by
  have hsize := e.two_pow_width
  have hclose : |j - n| < 2 ^ (8 * e.width) := by
    rw [abs_lt]
    by_cases hs : e.isSigned = true
    · simp only [range, hs, if_true, Set.mem_Ico] at hn hj
      constructor <;> linarith
    · simp only [range, hs, Bool.false_eq_true, if_false, Set.mem_Ico] at hn hj
      constructor <;> linarith
  have hzero := Int.eq_zero_of_abs_lt_dvd h.dvd hclose
  omega

theorem clamped_lt (x : Double) : x.clamped < 2 ^ 8 := by
  have hnearest := x.nearestByte_clamped
  cases hx : x.quantity with
  | nan =>
    rw [hx] at hnearest
    exact lt_of_eq_of_lt (Int.natCast_eq_zero.mp hnearest) (by decide)
  | infinite s =>
    rw [hx] at hnearest
    have hword : (x.clamped : ℤ) = if s then 0 else 255 := hnearest
    split at hword <;> omega
  | rational r =>
    rw [hx] at hnearest
    have hmem : (x.clamped : ℤ) ≤ 255 := hnearest.mem.2
    omega

theorem word_lt (e : Element) (x : Double) : e.word x < 2 ^ (8 * e.width) := by
  cases e
  case uint8Clamped => exact clamped_lt x
  case float32 => exact x.toSingle.bits.toNat_lt
  case float64 => exact x.bits.toNat_lt
  all_goals exact Nat.mod_lt _ (Nat.two_pow_pos _)

/-- The word of an integer type is the integer part modulo the number of words. -/
theorem word_modEq (he : e.isFloat = false) (hc : e ≠ .uint8Clamped) :
    (e.word x : ℤ) ≡ x.quantity.integerPart [ZMOD 2 ^ (8 * e.width)] := by
  have hword : e.word x = x.wrapped % 2 ^ (8 * e.width) := by
    cases e <;> first | rfl | exact absurd rfl hc | exact nomatch he
  have hdvd : (2 : ℤ) ^ (8 * e.width) ∣ 2 ^ 32 := by
    refine pow_dvd_pow 2 ?_
    cases e <;> first | decide | exact nomatch he
  rw [hword, Int.natCast_mod, x.wrapped_eq]
  push_cast
  exact (Int.mod_modEq _ _).trans (Int.ModEq.of_dvd hdvd (Int.mod_modEq _ _))

/-- The integer of the word is the only one that is stored of a number. -/
theorem stores_iff (he : e.isFloat = false) : e.Stores x n ↔ n = e.integer (e.word x) := by
  unfold Stores
  by_cases hc : e = .uint8Clamped
  · subst hc
    rw [if_pos rfl]
    exact ⟨fun h => h.unique x.nearestByte_clamped, fun h => h ▸ x.nearestByte_clamped⟩
  · rw [if_neg hc]
    have hmem := integer_mem (e.word_lt x)
    have hmod := (integer_modEq e (e.word x)).trans (word_modEq he hc)
    exact ⟨fun h => eq_of_modEq h.1 hmem (h.2.trans hmod.symm), fun h => h ▸ ⟨hmem, hmod⟩⟩

/-! ### The number that is read -/

theorem number_eq (he : e.isFloat = false) (w : ℕ) :
    e.number w = if e.isSigned then Double.ofInt (signedWord e.width w) else Double.ofNat w := by
  cases e <;> first | rfl | exact nomatch he

/-- The number that is read is that of the word. -/
theorem quantity_number (he : e.isFloat = false) (hw : w < 2 ^ (8 * e.width)) :
    (e.number w).quantity = .rational (e.integer w) := by
  have hwidth : e.width ≤ 4 := by cases e <;> first | decide | exact nomatch he
  have hsize : (2 : ℕ) ^ (8 * e.width) ≤ 2 ^ 32 := Nat.pow_le_pow_right (by decide) (by omega)
  have hmem := integer_mem hw
  have hhalf := e.two_pow_width
  have hsizeInt : (2 : ℤ) ^ (8 * e.width) ≤ 2 ^ 32 := by exact_mod_cast hsize
  rw [number_eq he, integer]
  by_cases hs : e.isSigned = true
  · simp only [range, integer, hs, if_true, Set.mem_Ico] at hmem
    rw [if_pos hs, if_pos hs, Double.quantity_ofInt (by omega)]
  · rw [if_neg hs, if_neg hs, Double.quantity_ofNat (by omega), Int.cast_natCast]

theorem eq_of_integer_eq {w' : ℕ} (hw : w < 2 ^ (8 * e.width)) (hw' : w' < 2 ^ (8 * e.width))
    (h : e.integer w = e.integer w') : w = w' := by
  have hmod : (w : ℤ) ≡ w' [ZMOD ((2 ^ (8 * e.width) : ℕ) : ℤ)] := by
    push_cast
    exact (integer_modEq e w).symm.trans (h ▸ integer_modEq e w')
  exact Nat.ModEq.eq_of_lt_of_lt (Int.natCast_modEq_iff.mp hmod) hw hw'

/-- What was read is stored as the same word. -/
theorem word_number (he : e ≠ .float32) (hw : w < 2 ^ (8 * e.width)) :
    e.word (e.number w) = w := by
  by_cases h64 : e = .float64
  · subst h64
    exact UInt64.toNat_ofNat_of_lt' hw
  · have hfloat : e.isFloat = false := by
      cases e <;> first | rfl | exact absurd rfl he | exact absurd rfl h64
    have hquantity := quantity_number hfloat hw
    have hstores : e.Stores (e.number w) (e.integer w) := by
      unfold Stores
      rw [hquantity]
      split
      · rename_i hc
        subst hc
        have hmem := integer_mem hw
        have hbyte : uint8Clamped.integer w ≤ 255 := Int.le_of_lt_add_one hmem.2
        exact isNearest_of_near ⟨hmem.1, hbyte⟩ (by norm_num) (by norm_num)
      · exact ⟨integer_mem hw, by rw [Quantity.integerPart, Double.towardZero_intCast]⟩
    exact (eq_of_integer_eq hw (word_lt _ _) ((stores_iff hfloat).mp hstores)).symm

end Element

end ModuleHost
