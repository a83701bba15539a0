import Linkage.Proofs.Space.Rotation

namespace Linkage

-- The largest finite number of binary64.
noncomputable def largest : ℝ :=
  ((2 ^ 53 - 1) * 2 ^ 971 : ℕ)

-- Numbers as a machine has them, but for its rounding: exact up to the largest finite one and infinite
-- beyond it. Zero has no sign, and counts as positive where it divides.
inductive Extended where
  | nan
  | infinite (negative : Bool)
  | finite (value : ℝ) (bounded : |value| ≤ largest)

namespace Space

def Vec3.map {α β : Type} (f : α → β) (v : Vec3 α) : Vec3 β :=
  ⟨f v.x, f v.y, f v.z⟩

def Quat.map {α β : Type} (f : α → β) (q : Quat α) : Quat β :=
  ⟨f q.w, f q.i, f q.j, f q.k⟩

end Space

namespace Extended

noncomputable def ofReal (x : ℝ) : Extended :=
  if h : |x| ≤ largest then finite x h else infinite (decide (x < 0))

def neg : Extended → Extended
  | nan => nan
  | infinite negative => infinite !negative
  | finite x h => finite (-x) (by rwa [abs_neg])

noncomputable def add : Extended → Extended → Extended
  | nan, _ => nan
  | _, nan => nan
  | infinite s, infinite t => if s = t then infinite s else nan
  | infinite s, finite _ _ => infinite s
  | finite _ _, infinite t => infinite t
  | finite x _, finite y _ => ofReal (x + y)

noncomputable def mul : Extended → Extended → Extended
  | nan, _ => nan
  | _, nan => nan
  | infinite s, infinite t => infinite (s != t)
  | infinite s, finite y _ => if y = 0 then nan else infinite (s != decide (y < 0))
  | finite x _, infinite t => if x = 0 then nan else infinite (t != decide (x < 0))
  | finite x _, finite y _ => ofReal (x * y)

noncomputable def div : Extended → Extended → Extended
  | nan, _ => nan
  | _, nan => nan
  | infinite _, infinite _ => nan
  | infinite s, finite y _ => infinite (s != decide (y < 0))
  | finite _ _, infinite _ => ofReal 0
  | finite x _, finite y _ =>
      if y = 0 then (if x = 0 then nan else infinite (decide (x < 0))) else ofReal (x * y⁻¹)

noncomputable def sqrt : Extended → Extended
  | nan => nan
  | infinite negative => if negative then nan else infinite false
  | finite x _ => if x < 0 then nan else ofReal (Real.sqrt x)

-- No comparison holds of what is not a number.
noncomputable def lt : Extended → Extended → Bool
  | nan, _ => false
  | _, nan => false
  | infinite s, infinite t => s && !t
  | infinite s, finite _ _ => s
  | finite _ _, infinite t => !t
  | finite x _, finite y _ => decide (x < y)

noncomputable def le : Extended → Extended → Bool
  | nan, _ => false
  | _, nan => false
  | infinite s, infinite t => s || !t
  | infinite s, finite _ _ => s
  | finite _ _, infinite t => !t
  | finite x _, finite y _ => decide (x ≤ y)

-- A function of angles has no value at infinity.
noncomputable def angular (f : ℝ → ℝ) : Extended → Extended
  | finite x _ => ofReal (f x)
  | _ => nan

noncomputable def arcsin : Extended → Extended
  | finite x _ => if |x| ≤ 1 then ofReal (Real.arcsin x) else nan
  | _ => nan

-- The angle towards a place, in the limit where a coordinate is infinite.
noncomputable def atan2 : Extended → Extended → Extended
  | nan, _ => nan
  | _, nan => nan
  | finite y _, finite x _ => ofReal (Complex.arg ⟨x, y⟩)
  | finite y _, infinite left =>
      if left then ofReal (if y < 0 then -Real.pi else Real.pi) else ofReal 0
  | infinite below, finite _ _ => ofReal (Complex.arg ⟨0, if below then -1 else 1⟩)
  | infinite below, infinite left =>
      ofReal (Complex.arg ⟨if left then -1 else 1, if below then -1 else 1⟩)

noncomputable instance : Scalar Extended where
  zero := ofReal 0
  one := ofReal 1
  add := add
  sub a b := a.add b.neg
  neg := neg
  mul := mul
  div := div
  sqrt := sqrt
  sin := angular Real.sin
  cos := angular Real.cos
  asin := arcsin
  atan2 := atan2
  halfPi := ofReal Scalar.halfPi
  epsilon := ofReal Scalar.epsilon
  le := le
  lt := lt

theorem sixteen_le_largest : ((16 : ℕ) : ℝ) ≤ largest := by
  have hshort : 16 ≤ (2 ^ 53 - 1) * 2 ^ 971 :=
    (by norm_num : 16 ≤ 2 ^ 53 - 1).trans (Nat.le_mul_of_pos_right _ (by positivity))
  exact Nat.cast_le.mpr hshort

theorem one_le_largest : (1 : ℝ) ≤ largest :=
  (Nat.one_le_cast.mpr (by norm_num)).trans sixteen_le_largest

section Arithmetic

variable {x y : ℝ}

theorem ofReal_of_le (h : |x| ≤ largest) : ofReal x = finite x h :=
  dif_pos h

theorem ofReal_of_lt (h : largest < x) : ofReal x = infinite false := by
  have hpositive : 0 < x := (zero_lt_one.trans_le one_le_largest).trans h
  rw [ofReal, dif_neg (by rw [abs_of_pos hpositive]; exact not_le.mpr h), decide_eq_false hpositive.not_gt]

@[simp]
theorem nan_add (a : Extended) : nan + a = nan :=
  rfl

@[simp]
theorem add_nan (a : Extended) : a + nan = nan := by
  cases a <;> rfl

@[simp]
theorem nan_mul (a : Extended) : nan * a = nan :=
  rfl

@[simp]
theorem div_nan (a : Extended) : a / nan = nan := by
  cases a <;> rfl

theorem neg_ofReal (x : ℝ) : -ofReal x = ofReal (-x) := by
  by_cases h : |x| ≤ largest
  · rw [ofReal_of_le h, ofReal_of_le (by rwa [abs_neg])]
    rfl
  · have hne : x ≠ 0 := by
      rintro rfl
      exact h (by rw [abs_zero]; exact zero_le_one.trans one_le_largest)
    rw [ofReal, dif_neg h, ofReal, dif_neg (by rwa [abs_neg])]
    change infinite _ = _
    rcases lt_or_gt_of_ne hne with hx | hx <;> simp [hx, hx.not_gt]

theorem ofReal_add (hx : |x| ≤ largest) (hy : |y| ≤ largest) : ofReal x + ofReal y = ofReal (x + y) := by
  rw [ofReal_of_le hx, ofReal_of_le hy]
  rfl

theorem ofReal_sub (hx : |x| ≤ largest) (hy : |y| ≤ largest) : ofReal x - ofReal y = ofReal (x - y) := by
  change ofReal x + -ofReal y = _
  rw [neg_ofReal, ofReal_add hx (by rwa [abs_neg]), sub_eq_add_neg]

theorem ofReal_mul (hx : |x| ≤ largest) (hy : |y| ≤ largest) : ofReal x * ofReal y = ofReal (x * y) := by
  rw [ofReal_of_le hx, ofReal_of_le hy]
  rfl

theorem ofReal_div (hx : |x| ≤ largest) (hy : |y| ≤ largest) (hne : y ≠ 0) :
    ofReal x / ofReal y = ofReal (x * y⁻¹) := by
  rw [ofReal_of_le hx, ofReal_of_le hy]
  exact if_neg hne

theorem ofReal_of_nonneg (hx : 0 ≤ x) :
    ofReal x = infinite false ∨ ∃ h, ofReal x = finite x h := by
  rcases le_or_gt x largest with hle | hlt
  · have h : |x| ≤ largest := by rwa [abs_of_nonneg hx]
    exact .inr ⟨h, ofReal_of_le h⟩
  · exact .inl (ofReal_of_lt hlt)

-- Where nothing is negative no sum of infinities can fail.
theorem ofReal_add_of_nonneg (hx : 0 ≤ x) (hy : 0 ≤ y) : ofReal x + ofReal y = ofReal (x + y) := by
  rcases le_or_gt x largest with h | h
  · rcases le_or_gt y largest with h' | h'
    · exact ofReal_add (by rwa [abs_of_nonneg hx]) (by rwa [abs_of_nonneg hy])
    · rw [ofReal_of_lt h', ofReal_of_lt (h'.trans_le (le_add_of_nonneg_left hx))]
      rcases ofReal_of_nonneg hx with hx | ⟨_, hx⟩ <;> rw [hx] <;> rfl
  · rw [ofReal_of_lt h, ofReal_of_lt (h.trans_le (le_add_of_nonneg_right hy))]
    rcases ofReal_of_nonneg hy with hy | ⟨_, hy⟩ <;> rw [hy] <;> rfl

end Arithmetic

-- A number stands for an exact one that is known to stay within a bound, so that sums and products of a
-- few of them are exact as well.
structure Shows (bound : ℝ) (a : Extended) (x : ℝ) : Prop where
  eq : a = ofReal x
  le : |x| ≤ bound

namespace Shows

variable {b c x y : ℝ} {a d : Extended}

theorem add (h : Shows b a x) (h' : Shows c d y) (hb : b ≤ largest) (hc : c ≤ largest) :
    Shows (b + c) (a + d) (x + y) where
  eq := by rw [h.eq, h'.eq, ofReal_add (h.le.trans hb) (h'.le.trans hc)]
  le := (abs_add_le x y).trans (add_le_add h.le h'.le)

theorem sub (h : Shows b a x) (h' : Shows c d y) (hb : b ≤ largest) (hc : c ≤ largest) :
    Shows (b + c) (a - d) (x - y) where
  eq := by rw [h.eq, h'.eq, ofReal_sub (h.le.trans hb) (h'.le.trans hc)]
  le := (abs_sub x y).trans (add_le_add h.le h'.le)

theorem mul (h : Shows b a x) (h' : Shows c d y) (hb : b ≤ largest) (hc : c ≤ largest) :
    Shows (b * c) (a * d) (x * y) where
  eq := by rw [h.eq, h'.eq, ofReal_mul (h.le.trans hb) (h'.le.trans hc)]
  le := by
    rw [abs_mul]
    exact mul_le_mul h.le h'.le (abs_nonneg y) ((abs_nonneg x).trans h.le)

end Shows

end Extended

namespace Space

open Extended

def Vec3.Within (bound : ℝ) (v : Vec3 ℝ) : Prop :=
  |v.x| ≤ bound ∧ |v.y| ≤ bound ∧ |v.z| ≤ bound

theorem Vec3.Within.mono {b c : ℝ} {v : Vec3 ℝ} (h : v.Within b) (hle : b ≤ c) : v.Within c :=
  ⟨h.1.trans hle, h.2.1.trans hle, h.2.2.trans hle⟩

-- The same for each coordinate.
structure Vec3.Shows (bound : ℝ) (u : Vec3 Extended) (v : Vec3 ℝ) : Prop where
  x : Extended.Shows bound u.x v.x
  y : Extended.Shows bound u.y v.y
  z : Extended.Shows bound u.z v.z

namespace Vec3.Shows

variable {b c : ℝ} {u w : Vec3 Extended} {v t : Vec3 ℝ}

theorem eq_map (h : Vec3.Shows b u v) : u = v.map ofReal := by
  ext1
  · exact h.x.eq
  · exact h.y.eq
  · exact h.z.eq

theorem add (h : Vec3.Shows b u v) (h' : Vec3.Shows c w t) (hb : b ≤ largest) (hc : c ≤ largest) :
    Vec3.Shows (b + c) (u.add w) (v.add t) :=
  ⟨h.x.add h'.x hb hc, h.y.add h'.y hb hc, h.z.add h'.z hb hc⟩

theorem scale {a : Extended} {y : ℝ} (h : Vec3.Shows b u v) (h' : Extended.Shows c a y)
    (hb : b ≤ largest) (hc : c ≤ largest) : Vec3.Shows (b * c) (u.scale a) (v.scale y) :=
  ⟨h.x.mul h' hb hc, h.y.mul h' hb hc, h.z.mul h' hb hc⟩

theorem cross (h : Vec3.Shows b u v) (h' : Vec3.Shows c w t) (hb : b ≤ largest) (hc : c ≤ largest)
    (hbc : b * c ≤ largest) : Vec3.Shows (b * c + b * c) (u.cross w) (v.cross t) :=
  ⟨(h.y.mul h'.z hb hc).sub (h.z.mul h'.y hb hc) hbc hbc,
    (h.z.mul h'.x hb hc).sub (h.x.mul h'.z hb hc) hbc hbc,
    (h.x.mul h'.y hb hc).sub (h.y.mul h'.x hb hc) hbc hbc⟩

end Vec3.Shows

theorem Vec3.within_one {v : Vec3 ℝ} (h : v.dot v = 1) : v.Within 1 := by
  simp only [dot] at h
  have hx := mul_self_nonneg v.x
  have hy := mul_self_nonneg v.y
  have hz := mul_self_nonneg v.z
  simp only [Within, abs_le_one_iff_mul_self_le_one]
  exact ⟨by linarith, by linarith, by linarith⟩

theorem Quat.abs_le_one {q : Quat ℝ} (h : q.normSquared = 1) :
    |q.w| ≤ 1 ∧ |q.i| ≤ 1 ∧ |q.j| ≤ 1 ∧ |q.k| ≤ 1 := by
  simp only [normSquared] at h
  have hw := mul_self_nonneg q.w
  have hi := mul_self_nonneg q.i
  have hj := mul_self_nonneg q.j
  have hk := mul_self_nonneg q.k
  simp only [abs_le_one_iff_mul_self_le_one]
  exact ⟨by linarith, by linarith, by linarith, by linarith⟩

theorem Vec3.shows_map {bound : ℝ} {v : Vec3 ℝ} (h : v.Within bound) :
    Vec3.Shows bound (v.map ofReal) v :=
  ⟨⟨rfl, h.1⟩, ⟨rfl, h.2.1⟩, ⟨rfl, h.2.2⟩⟩

-- Turning a direction by a unit quaternion is exact, for its entries and all on the way stay small.
theorem Quat.rotate_map {q : Quat ℝ} (hq : q.normSquared = 1) {v : Vec3 ℝ} (hv : v.Within 1) :
    (q.map ofReal).rotate (v.map ofReal) = (q.rotate v).map ofReal := by
  have hlarge : (16 : ℝ) ≤ largest := by exact_mod_cast sixteen_le_largest
  have hvector := Vec3.shows_map hv
  obtain ⟨hw, hi⟩ := Quat.abs_le_one hq
  have himaginary : Vec3.Shows 1 (q.imaginary.map ofReal) q.imaginary := Vec3.shows_map hi
  have hscalar : Extended.Shows 1 (ofReal q.w) q.w := ⟨rfl, hw⟩
  have hone : Extended.Shows 1 (1 : Extended) 1 := ⟨rfl, abs_one.le⟩
  have htwo := hone.add hone one_le_largest one_le_largest
  have hcross := himaginary.cross hvector one_le_largest one_le_largest (by linarith)
  have htwice := hcross.scale htwo (by linarith) (by linarith)
  have hacross := himaginary.cross htwice one_le_largest (by linarith) (by linarith)
  have halong := htwice.scale hscalar (by linarith) one_le_largest
  exact ((halong.add hacross (by linarith) (by linarith)).add hvector (by linarith) one_le_largest).eq_map

theorem Quat.conjugate_map (q : Quat ℝ) : (q.map ofReal).conjugate = q.conjugate.map ofReal := by
  ext1
  · rfl
  · exact neg_ofReal q.i
  · exact neg_ofReal q.j
  · exact neg_ofReal q.k

end Space

end Linkage
