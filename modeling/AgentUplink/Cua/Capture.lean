/-
Pixels and points.

A display is looked at in pixels and clicked in points. The number of pixels to a point is
derived for each capture from the declared size of the display, as a whole percentage rounded
up, and a pixel is taken to a point by dividing by it.
-/
import AgentUplink.Lib.Fallible

namespace AgentUplink.Cua

open Fallible

def identityScalePercent : Nat := 100

def maxScalePercent : Nat := 800

def maxCaptureDimension : UInt32 := 65535

/-- A point in the pixels of a capture. -/
structure Point where
  x : UInt32
  y : UInt32

structure CaptureIdentity where
  width : UInt32
  height : UInt32
  scalePercent : Option UInt32

namespace CaptureIdentity

def contains (c : CaptureIdentity) (point : Point) : Bool :=
  point.x < c.width && point.y < c.height

theorem contains_iff {c : CaptureIdentity} {point : Point} :
    c.contains point = true ↔ point.x < c.width ∧ point.y < c.height := by
  rw [contains, Bool.and_eq_true, decide_eq_true_eq, decide_eq_true_eq]

/-- The product fits into 64 bits; the quotient is cut to 32. -/
def toBackendPoint (c : CaptureIdentity) (point : Point) : Option (UInt32 × UInt32) :=
  c.scalePercent.map fun scale =>
    (.ofNat (point.x.toNat * identityScalePercent / scale.toNat),
      .ofNat (point.y.toNat * identityScalePercent / scale.toNat))

end CaptureIdentity

inductive ScaleDerivationError
  | aspectMismatch
  | outOfRange
  | geometry
  deriving DecidableEq

def bounded (n : UInt32) : Prop := 1 ≤ n ∧ n ≤ maxCaptureDimension

instance (n : UInt32) : Decidable (bounded n) := inferInstanceAs (Decidable (_ ∧ _))

/-- The declared size of a display, in points. -/
structure PointSpace where
  width : UInt32
  height : UInt32
  width_bounded : bounded width
  height_bounded : bounded height

namespace PointSpace

def rounded (pixels points : UInt32) : Nat :=
  (pixels.toNat * identityScalePercent) ⌈/⌉ points.toNat

def scalePercentFor (space : PointSpace) (imageWidth imageHeight : UInt32) :
    Except ScaleDerivationError UInt32 :=
  if ¬ bounded imageWidth ∨ ¬ bounded imageHeight then .error .geometry
  else
    let horizontal := rounded imageWidth space.width
    let vertical := rounded imageHeight space.height
    if Nat.dist horizontal vertical > 1 then .error .aspectMismatch
    else
      let percent := max horizontal vertical
      if percent = 0 ∨ percent > maxScalePercent then .error .outOfRange
      else .ok (.ofNat percent)

end PointSpace

/-! ## One axis -/

section Axis

variable {pixels points scale : Nat}

theorem le_of_rounded (hpoints : 0 < points)
    (h : (pixels * identityScalePercent) ⌈/⌉ points ≤ scale) :
    pixels * identityScalePercent ≤ scale * points := by
  rw [Nat.mul_comm scale]
  exact (ceilDiv_le_iff_le_mul hpoints).1 h

variable (h : pixels * identityScalePercent ≤ scale * points)
include h

/-- A scale that is rounded up keeps a pixel at or before the point it is under. -/
theorem scaled_le (hscale : 0 < scale) {x : Nat} (hx : x < pixels) :
    x * identityScalePercent / scale ≤ x * points / pixels := by
  rw [Nat.le_div_iff_mul_le (Nat.zero_lt_of_lt hx)]
  have hquotient := Nat.div_mul_le_self (x * identityScalePercent) scale
  refine Nat.le_of_mul_le_mul_right ?_ hscale
  calc x * identityScalePercent / scale * pixels * scale
      = x * identityScalePercent / scale * scale * pixels := Nat.mul_right_comm ..
    _ ≤ x * identityScalePercent * pixels := Nat.mul_le_mul_right _ hquotient
    _ = x * (pixels * identityScalePercent) := by ring
    _ ≤ x * (scale * points) := Nat.mul_le_mul_left _ h
    _ = x * points * scale := by ring

/-- The parts by which a click is behind, from the two quotients and what they cut off. -/
theorem drift_eq (x : Nat) :
    x * (scale * points - pixels * 100) + pixels * (x * 100 % scale) +
        scale * pixels * (x * 100 / scale) =
      scale * pixels * (x * points / pixels) + scale * (x * points % pixels) := by
  obtain ⟨k, hk⟩ := Nat.exists_eq_add_of_le h
  have hk : scale * points = pixels * 100 + k := hk
  rw [hk, Nat.add_sub_cancel_left]
  calc x * k + pixels * (x * 100 % scale) + scale * pixels * (x * 100 / scale)
      = x * k + pixels * (scale * (x * 100 / scale) + x * 100 % scale) := by ring
    _ = x * k + pixels * (x * 100) := by rw [Nat.div_add_mod]
    _ = x * (pixels * 100 + k) := by ring
    _ = scale * (x * points) := by rw [← hk]; ring
    _ = scale * (pixels * (x * points / pixels) + x * points % pixels) := by rw [Nat.div_add_mod]
    _ = _ := by ring

omit h in
theorem under_lt {x : Nat} (hx : x < pixels) (hpoints : 0 < points) :
    x * points / pixels < points := by
  rw [Nat.div_lt_iff_lt_mul (Nat.zero_lt_of_lt hx), Nat.mul_comm points]
  exact Nat.mul_lt_mul_of_pos_right hx hpoints

end Axis

/-- Two coordinates that differ by at most one. -/
def Near (n m : Nat) : Prop := n ≤ m + 1 ∧ m ≤ n + 1

instance (n m : Nat) : Decidable (Near n m) := inferInstanceAs (Decidable (_ ∧ _))

/-- At the pixel `x` the click is behind by `x * (percent * points - pixels * 100)` parts, of
which a point has `percent * pixels`. The two quotients are cut off; with that, it is behind by
at most a point. -/
def Follows (percent pixels points x : Nat) : Prop :=
  x * (percent * points - pixels * 100) + pixels * (x * 100 % percent) ≤
    percent * pixels + percent * (x * points % pixels)

instance (percent pixels points x : Nat) : Decidable (Follows percent pixels points x) :=
  inferInstanceAs (Decidable (_ ≤ _))

/-- What one coordinate of a click comes to, for the pixel `x` of `pixels`. -/
structure Lands (pixels points scale x target : Nat) : Prop where
  eq : target = x * identityScalePercent / scale
  inside : target < points
  near_iff : Near target (x * points / pixels) ↔ Follows scale pixels points x
  near_of_drift : x * (scale * points - pixels * 100) ≤ scale * pixels →
    Near target (x * points / pixels)

theorem Lands.mono {pixels points scale x x' : Nat} {target target' : UInt32}
    (h : Lands pixels points scale x target.toNat)
    (h' : Lands pixels points scale x' target'.toNat) (hle : x ≤ x') : target ≤ target' := by
  rw [UInt32.le_iff_toNat_le, h.eq, h'.eq]
  exact Nat.div_le_div_right (Nat.mul_le_mul_right _ hle)

/-- The scale of an axis: rounded up, so that it is never too small. -/
structure Scales (pixels points : UInt32) (scale : Nat) : Prop where
  positive : 0 < scale
  le : pixels.toNat * identityScalePercent ≤ scale * points.toNat
  points : bounded points

theorem Scales.lands {pixels points : UInt32} {scale : Nat} (h : Scales pixels points scale)
    {x : UInt32} (hx : x < pixels) :
    Lands pixels.toNat points.toNat scale x.toNat
      (UInt32.ofNat (x.toNat * identityScalePercent / scale)).toNat := by
  have hx : x.toNat < pixels.toNat := hx
  have hpoints : 0 < points.toNat := h.points.1
  have hle := scaled_le h.le h.positive hx
  have hlt : x.toNat * identityScalePercent / scale < points.toNat :=
    Nat.lt_of_le_of_lt hle (under_lt hx hpoints)
  rw [UInt32.toNat_ofNat_of_lt' (Nat.lt_trans hlt points.toNat_lt)]
  have hdrift := drift_eq h.le x.toNat
  have hparts : 0 < scale * pixels.toNat := Nat.mul_pos h.positive (Nat.zero_lt_of_lt hx)
  refine ⟨rfl, hlt, ?_, fun hsmall => ⟨Nat.le_succ_of_le hle, ?_⟩⟩
  · unfold Near Follows
    rw [and_iff_right (Nat.le_succ_of_le hle), ← Nat.mul_le_mul_left_iff hparts, Nat.mul_add]
    show scale * pixels.toNat * _ ≤ scale * pixels.toNat * (x.toNat * 100 / scale) + _ ↔ _
    omega
  · -- Each quotient is cut off by less than a point.
    have hcut : pixels.toNat * (x.toNat * 100 % scale) < scale * pixels.toNat := by
      rw [Nat.mul_comm scale]
      exact Nat.mul_lt_mul_of_pos_left (Nat.mod_lt _ h.positive) (Nat.zero_lt_of_lt hx)
    refine Nat.le_of_lt_succ (Nat.lt_of_mul_lt_mul_left (a := scale * pixels.toNat) ?_)
    show _ < scale * pixels.toNat * (x.toNat * 100 / scale + 1 + 1)
    rw [Nat.mul_succ, Nat.mul_succ]
    omega

/-- The larger of the two ratios in percent, rounded up. -/
def percent (space : PointSpace) (w h : UInt32) : Nat :=
  max ((w.toNat * 100 + space.width.toNat - 1) / space.width.toNat)
    ((h.toNat * 100 + space.height.toNat - 1) / space.height.toNat)

theorem scales_of_scalePercentFor {space : PointSpace} {w h p : UInt32}
    (hp : space.scalePercentFor w h = .ok p) :
    p.toNat = percent space w h ∧
      Scales w space.width (percent space w h) ∧ Scales h space.height (percent space w h) := by
  simp only [PointSpace.scalePercentFor, ite_error_eq_ok, Except.ok.injEq] at hp
  obtain ⟨-, -, hrange, rfl⟩ := hp
  rw [not_or, Nat.not_lt] at hrange
  have hsize : max (PointSpace.rounded w space.width) (PointSpace.rounded h space.height) <
      UInt32.size := Nat.lt_of_le_of_lt hrange.2 (by decide)
  rw [UInt32.toNat_ofNat_of_lt' hsize]
  have hpositive := Nat.pos_of_ne_zero hrange.1
  exact ⟨rfl, ⟨hpositive, le_of_rounded space.width_bounded.1 (Nat.le_max_left _ _),
    space.width_bounded⟩, ⟨hpositive, le_of_rounded space.height_bounded.1 (Nat.le_max_right _ _),
    space.height_bounded⟩⟩

/-- A click on a pixel of a capture is inside the display, keeps the order of the pixels and is
the pixel itself on a display of scale 100. It is within one of the point under the pixel
exactly when it follows the pixel on both axes, for which it is enough that neither axis has
drifted by more than a point. -/
theorem click_near_iff {space : PointSpace} {w h p : UInt32}
    (hp : space.scalePercentFor w h = .ok p) :
    (∀ point : Point, CaptureIdentity.contains ⟨w, h, some p⟩ point = true →
      ∃ x y, CaptureIdentity.toBackendPoint ⟨w, h, some p⟩ point = some (x, y) ∧
        x < space.width ∧ y < space.height ∧
        (Near x.toNat (point.x.toNat * space.width.toNat / w.toNat) ∧
            Near y.toNat (point.y.toNat * space.height.toNat / h.toNat) ↔
          Follows (percent space w h) w.toNat space.width.toNat point.x.toNat ∧
            Follows (percent space w h) h.toNat space.height.toNat point.y.toNat) ∧
        (point.x.toNat * (percent space w h * space.width.toNat - w.toNat * 100) ≤
            percent space w h * w.toNat →
          point.y.toNat * (percent space w h * space.height.toNat - h.toNat * 100) ≤
            percent space w h * h.toNat →
          Near x.toNat (point.x.toNat * space.width.toNat / w.toNat) ∧
            Near y.toNat (point.y.toNat * space.height.toNat / h.toNat)) ∧
        ∀ point' : Point, CaptureIdentity.contains ⟨w, h, some p⟩ point' = true →
          ∃ x' y', CaptureIdentity.toBackendPoint ⟨w, h, some p⟩ point' = some (x', y') ∧
            (point.x ≤ point'.x → x ≤ x') ∧ (point.y ≤ point'.y → y ≤ y')) ∧
    (p.toNat = identityScalePercent → ∀ point,
      CaptureIdentity.toBackendPoint ⟨w, h, some p⟩ point = some (point.x, point.y)) := by
  obtain ⟨heq, hw, hh⟩ := scales_of_scalePercentFor hp
  rw [← heq] at hw hh ⊢
  refine ⟨fun point hpoint => ?_, fun hidentity point => ?_⟩
  · have hpoint := CaptureIdentity.contains_iff.1 hpoint
    have hx := hw.lands hpoint.1
    have hy := hh.lands hpoint.2
    refine ⟨_, _, rfl, hx.inside, hy.inside, and_congr hx.near_iff hy.near_iff,
      fun hdriftX hdriftY => ⟨hx.near_of_drift hdriftX, hy.near_of_drift hdriftY⟩, ?_⟩
    intro point' hpoint'
    have hpoint' := CaptureIdentity.contains_iff.1 hpoint'
    exact ⟨_, _, rfl, hx.mono (hw.lands hpoint'.1), hy.mono (hh.lands hpoint'.2)⟩
  · have hsame (n : UInt32) : UInt32.ofNat (n.toNat * identityScalePercent / p.toNat) = n := by
      rw [hidentity, Nat.mul_div_cancel _ (by decide), UInt32.ofNat_toNat]
    unfold CaptureIdentity.toBackendPoint
    rw [Option.map_some, hsame, hsame]

/-- A notebook display, captured 1920 pixels wide. -/
def notebook : PointSpace := ⟨1728, 1117, by decide, by decide⟩

theorem click_near_iff_notebook :
    notebook.scalePercentFor 1920 1241 = .ok 112 ∧
      ∃ x y, CaptureIdentity.toBackendPoint ⟨1920, 1241, some 112⟩ ⟨100, 100⟩ = some (x, y) ∧
        x < 1728 ∧ y < 1117 ∧
        Near x.toNat (100 * 1728 / 1920) ∧ Near y.toNat (100 * 1117 / 1241) := by
  have hscale : notebook.scalePercentFor 1920 1241 = .ok 112 := by decide
  obtain ⟨x, y, hto, hx, hy, hnear, -⟩ := (click_near_iff hscale).1 ⟨100, 100⟩ (by decide)
  exact ⟨hscale, x, y, hto, hx, hy, hnear.2 (by decide)⟩

/-- The last column of that capture is over point 1727 and is clicked at point 1713. -/
theorem click_far_from_pixel :
    notebook.scalePercentFor 1920 1241 = .ok 112 ∧
      CaptureIdentity.contains ⟨1920, 1241, some 112⟩ ⟨1919, 0⟩ = true ∧
      CaptureIdentity.toBackendPoint ⟨1920, 1241, some 112⟩ ⟨1919, 0⟩ = some (1713, 0) ∧
      ¬ Near 1713 (1919 * notebook.width.toNat / 1920) := by
  decide

end AgentUplink.Cua
