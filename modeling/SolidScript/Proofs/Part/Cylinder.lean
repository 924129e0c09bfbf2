import Mathlib.Data.List.Basic
import SolidScript.Part.Cylinder

/-!
# Dimensions from settings

A cylinder is built from settings in any order, and its dimensions are read back from its arguments.
A girth is one of the six lengths that the radius of a face can be told from. Each setting gives a
value to one girth at most, and the last one counts (`CylinderPlan.given?_ofSettings`); the girths
that were set are the arguments that are found (`CylinderPlan.get?_named`).

So the dimensions can be told from the settings alone (`Cylinder.ofHead_cylinder`): a face has the
radius of the first of its four girths that was set, whatever was set for the other face.
-/

namespace SolidScript

open Space

/-- A radius or a diameter, of one face or of both. -/
inductive Girth where
  | radius (face : Option Face)
  | diameter (face : Option Face)
  deriving DecidableEq

namespace Girth

def key : Girth → String
  | radius none => "r"
  | radius (some face) => face.radiusKey
  | diameter none => "d"
  | diameter (some face) => face.diameterKey

/-- The girths that the radius of a face can be told from: its own radius, its own diameter, the
common radius, the common diameter. -/
def ofFace (face : Face) : List Girth :=
  [radius (some face), diameter (some face), radius none, diameter none]

/-- The radius that belongs to a value of the girth. -/
def toRadius {R : Type} [One R] [Add R] [Div R] : Girth → R → R
  | radius _, r => r
  | diameter _, d => d / (1 + 1)

end Girth

def Face.other : Face → Face
  | bottom => top
  | top => bottom

variable {R α : Type}

/-! ## The last setting counts -/

namespace CylinderSetting

/-- The value of the last of some settings that has one. -/
def last? (value? : CylinderSetting R → Option α) (settings : List (CylinderSetting R)) :
    Option α :=
  (settings.filterMap value?).getLast?

theorem last?_cons (value? : CylinderSetting R → Option α) (setting : CylinderSetting R)
    (settings : List (CylinderSetting R)) :
    last? value? (setting :: settings) = (last? value? settings).or (value? setting) := by
  unfold last?
  rw [List.filterMap_cons]
  cases value? setting with
  | none => exact Option.or_none.symm
  | some a =>
    show (a :: settings.filterMap value?).getLast? = _
    rw [List.getLast?_cons, Option.or_some]

def height? : CylinderSetting R → Option R
  | height h => some h
  | _ => none

def centered? : CylinderSetting R → Option Bool
  | centered b => some b
  | _ => none

/-- The value that a setting gives to a girth. -/
def girth? (girth : Girth) : CylinderSetting R → Option R
  | radius r => if girth = .radius none then some r else none
  | diameter d => if girth = .diameter none then some d else none
  | faceRadius face r => if girth = .radius (some face) then some r else none
  | faceDiameter face d => if girth = .diameter (some face) then some d else none
  | _ => none

/-- Whether a setting gives a face its own radius or its own diameter. -/
def isOwn (face : Face) : CylinderSetting R → Bool
  | faceRadius face' _ | faceDiameter face' _ => face' = face
  | _ => false

/-- The radius of a face: the first of its girths that was set tells it. -/
def radius? [One R] [Add R] [Div R] (settings : List (CylinderSetting R)) (face : Face) :
    Option R :=
  (Girth.ofFace face).findSome? fun girth => (last? (girth? girth) settings).map girth.toRadius

end CylinderSetting

namespace CylinderPlan

open CylinderSetting

def given? (plan : CylinderPlan R) : Girth → Option R
  | .radius none => plan.radius
  | .radius (some .bottom) => plan.bottomRadius
  | .radius (some .top) => plan.topRadius
  | .diameter none => plan.diameter
  | .diameter (some .bottom) => plan.bottomDiameter
  | .diameter (some .top) => plan.topDiameter

theorem given?_set (plan : CylinderPlan R) (setting : CylinderSetting R) (girth : Girth) :
    (plan.set setting).given? girth = (setting.girth? girth).or (plan.given? girth) := by
  rcases girth with (_ | _ | _) | (_ | _ | _) <;>
    rcases setting with _ | _ | _ | ⟨_ | _, _⟩ | ⟨_ | _, _⟩ | _ | _ <;> rfl

/-- What each setting changes is at the end what the last of them has made it. -/
theorem foldl_set (field : CylinderPlan R → Option α) (value? : CylinderSetting R → Option α)
    (h : ∀ plan setting, field (plan.set setting) = (value? setting).or (field plan))
    (settings : List (CylinderSetting R)) (plan : CylinderPlan R) :
    field (settings.foldl set plan) = (last? value? settings).or (field plan) := by
  induction settings generalizing plan with
  | nil => rfl
  | cons setting rest ih => rw [List.foldl_cons, ih, h, last?_cons, Option.or_assoc]

variable [One R]

theorem given?_ofSettings (settings : List (CylinderSetting R)) (girth : Girth) :
    (ofSettings settings).given? girth = last? (girth? girth) settings := by
  have hinitial : (initial : CylinderPlan R).given? girth = none := by
    rcases girth with (_ | _ | _) | (_ | _ | _) <;> rfl
  have hset (plan : CylinderPlan R) (setting : CylinderSetting R) := given?_set plan setting girth
  rw [ofSettings, foldl_set (given? · girth) (girth? girth) hset, hinitial, Option.or_none]

theorem height_ofSettings (settings : List (CylinderSetting R)) :
    (ofSettings settings).height = (last? height? settings).getD 1 := by
  have hset (plan : CylinderPlan R) (setting : CylinderSetting R) :
      some (plan.set setting).height = (height? setting).or (some plan.height) := by
    rcases setting with _ | _ | _ | ⟨_ | _, _⟩ | ⟨_ | _, _⟩ | _ | _ <;> rfl
  have hlast := foldl_set (fun plan => some plan.height) height? hset settings initial
  rw [Option.or_some] at hlast
  exact Option.some.inj hlast

theorem centered_ofSettings (settings : List (CylinderSetting R)) :
    (ofSettings settings).centered = (last? centered? settings).getD false := by
  have hset (plan : CylinderPlan R) (setting : CylinderSetting R) :
      some (plan.set setting).centered = (centered? setting).or (some plan.centered) := by
    rcases setting with _ | _ | _ | ⟨_ | _, _⟩ | ⟨_ | _, _⟩ | _ | _ <;> rfl
  have hlast := foldl_set (fun plan => some plan.centered) centered? hset settings initial
  rw [Option.or_some] at hlast
  exact Option.some.inj hlast

/-! ## What was set is found -/

omit [One R] in
theorem get?_named (plan : CylinderPlan R) (girth : Girth) :
    plan.named.get? girth.key = (plan.given? girth).map .real := by
  rcases girth with (_ | _ | _) | (_ | _ | _) <;>
    simp [named, Named.ofList, Named.insertAll, Named.get?_insert?, Named.get?_insert,
      Named.get?_empty, Girth.key, Face.radiusKey, Face.diameterKey, given?]

omit [One R] in
theorem get?_named_height (plan : CylinderPlan R) :
    plan.named.get? "h" = some (.real plan.height) := by
  simp [named, Named.ofList, Named.insertAll, Named.get?_insert?, Named.get?_insert]

omit [One R] in
theorem get?_named_centered (plan : CylinderPlan R) :
    plan.named.get? "center" = if plan.centered then some (.bool true) else none := by
  simp [named, Named.ofList, Named.insertAll, Named.get?_insert?, Named.get?_insert,
    Named.get?_empty]

def head (plan : CylinderPlan R) : Head R := .ofKind .cylinder [] plan.named .plain

variable [Coordinate R]

omit [One R] in
theorem number?_head (plan : CylinderPlan R) (girth : Girth) :
    plan.head.number? girth.key = .ok (plan.given? girth) := by
  unfold Head.number?
  rw [show plan.head.named = plan.named from rfl, get?_named]
  cases plan.given? girth <;> rfl

omit [One R] in
theorem number?_head_height (plan : CylinderPlan R) :
    plan.head.number? "h" = .ok (some plan.height) := by
  unfold Head.number?
  rw [show plan.head.named = plan.named from rfl, get?_named_height]
  rfl

omit [One R] [Coordinate R] in
theorem isSet_head_centered (plan : CylinderPlan R) :
    plan.head.isSet "center" = plan.centered := by
  unfold Head.isSet
  rw [show plan.head.named = plan.named from rfl, get?_named_centered]
  cases plan.centered <;> rfl

end CylinderPlan

/-! ## Dimensions -/

namespace Cylinder

open CylinderSetting

/-- Of readings without faults the first one with a number counts. -/
theorem firstGiven_map_ok (otherwise : Fault) (values : List (Option R)) :
    firstGiven otherwise (values.map .ok) = (values.findSome? id).elim (.error otherwise) .ok := by
  induction values with
  | nil => rfl
  | cons value rest ih =>
    cases value with
    | none => exact ih
    | some r => rfl

variable [One R] [Add R] [Div R] [Coordinate R]

/-- The radius of a face is read from the first of its girths that is set. -/
theorem faceRadius_head (plan : CylinderPlan R) (face : Face) :
    faceRadius plan.head face =
      ((Girth.ofFace face).findSome? fun girth => (plan.given? girth).map girth.toRadius).elim
        (.error (.noRadius face)) .ok := by
  have hradius (face : Option Face) :
      (plan.given? (.radius face)).map (Girth.radius face).toRadius = plan.given? (.radius face) :=
    congrFun Option.map_id _
  have hfirst := firstGiven_map_ok (.noRadius face)
    ((Girth.ofFace face).map fun girth => (plan.given? girth).map girth.toRadius)
  rw [List.findSome?_map] at hfirst
  refine Eq.trans ?_ hfirst
  show firstGiven (.noRadius face)
    [plan.head.number? (Girth.radius (some face)).key,
      (plan.head.number? (Girth.diameter (some face)).key).map (Option.map (· / (1 + 1))),
      plan.head.number? (Girth.radius none).key,
      (plan.head.number? (Girth.diameter none).key).map (Option.map (· / (1 + 1)))] = _
  simp only [CylinderPlan.number?_head, Girth.ofFace, List.map_cons, List.map_nil, hradius]
  rfl

theorem faceRadius_ofSettings (settings : List (CylinderSetting R)) (face : Face) :
    faceRadius (CylinderPlan.ofSettings settings).head face =
      (radius? settings face).elim (.error (.noRadius face)) .ok := by
  rw [faceRadius_head, radius?]
  simp only [CylinderPlan.given?_ofSettings]

theorem ofHead_head (plan : CylinderPlan R) :
    ofHead plan.head = do
      let bottom ← faceRadius plan.head .bottom
      let top ← faceRadius plan.head .top
      return ⟨plan.height, bottom, top, plan.centered⟩ := by
  have hkind : ¬plan.head.kind ≠ .cylinder := fun h => h rfl
  unfold ofHead
  rw [if_neg hkind, plan.number?_head_height, plan.isSet_head_centered]
  rfl

/-- The dimensions that settings tell, the bottom face first. -/
def ofSettings (settings : List (CylinderSetting R)) : Except Fault (Cylinder R) :=
  match radius? settings .bottom, radius? settings .top with
  | none, _ => .error (.noRadius .bottom)
  | some _, none => .error (.noRadius .top)
  | some bottom, some top =>
    .ok ⟨(last? height? settings).getD 1, bottom, top, (last? centered? settings).getD false⟩

theorem ofHead_ofSettings (settings : List (CylinderSetting R)) :
    ofHead (CylinderPlan.ofSettings settings).head = ofSettings settings := by
  rw [ofHead_head, faceRadius_ofSettings, faceRadius_ofSettings,
    CylinderPlan.height_ofSettings, CylinderPlan.centered_ofSettings, ofSettings]
  cases radius? settings .bottom <;> cases radius? settings .top <;> rfl

omit [Coordinate R] in
theorem radius?_eq_none_iff (settings : List (CylinderSetting R)) (face : Face) :
    radius? settings face = none ↔
      ∀ girth ∈ Girth.ofFace face, ∀ setting ∈ settings, setting.girth? girth = none := by
  simp only [radius?, last?, List.findSome?_eq_none_iff, Option.map_eq_none_iff,
    List.getLast?_eq_none_iff, List.filterMap_eq_nil_iff]

omit [Coordinate R] in
theorem exists_ofSettings_error_iff (settings : List (CylinderSetting R)) :
    (∃ fault, ofSettings settings = .error fault) ↔ ∃ face, radius? settings face = none := by
  unfold ofSettings
  constructor
  · rintro ⟨fault, h⟩
    cases hbottom : radius? settings .bottom with
    | none => exact ⟨.bottom, hbottom⟩
    | some bottom =>
      cases htop : radius? settings .top with
      | none => exact ⟨.top, htop⟩
      | some top =>
        rw [hbottom, htop] at h
        cases h
  · rintro ⟨_ | _, h⟩
    · exact ⟨.noRadius .bottom, by rw [h]⟩
    · cases hbottom : radius? settings .bottom with
      | none => exact ⟨.noRadius .bottom, rfl⟩
      | some bottom => exact ⟨.noRadius .top, by rw [h]⟩

/-! ## The other face -/

omit [One R] [Add R] [Div R] [Coordinate R] in
theorem girth?_eq_none_of_isOwn {face : Face} {setting : CylinderSetting R}
    (h : setting.isOwn face.other) {girth : Girth} (hgirth : girth ∈ Girth.ofFace face) :
    setting.girth? girth = none := by
  have hforeign : girth ≠ .radius (some face.other) ∧ girth ≠ .diameter (some face.other) := by
    revert girth
    cases face <;> decide
  cases setting with
  | faceRadius face' r =>
    obtain rfl : face' = face.other := of_decide_eq_true h
    exact if_neg hforeign.1
  | faceDiameter face' d =>
    obtain rfl : face' = face.other := of_decide_eq_true h
    exact if_neg hforeign.2
  | _ => cases h

omit [Coordinate R] in
theorem radius?_filter (settings : List (CylinderSetting R)) (face : Face) :
    radius? (settings.filter (!isOwn face.other ·)) face = radius? settings face := by
  have hlast (girth : Girth) (hgirth : girth ∈ Girth.ofFace face) :
      last? (girth? girth) (settings.filter (!isOwn face.other ·)) =
        last? (girth? girth) settings := by
    unfold last?
    rw [List.filterMap_filter]
    congr 2
    funext setting
    cases hown : isOwn face.other setting with
    | false => rfl
    | true => exact (girth?_eq_none_of_isOwn hown hgirth).symm
  unfold radius?
  rw [← List.head?_filterMap, ← List.head?_filterMap]
  exact congrArg List.head? (List.filterMap_congr fun girth hgirth => by rw [hlast girth hgirth])

/-- A cylinder has the last height that was set, and the last setting says whether it is centered. A
face has the radius that the first of its girths that was set tells, whatever was set for the other
face alone. There are no dimensions if and only if a face has none of its girths set, and the bottom
face is the first to be reported. -/
theorem ofHead_cylinder (settings : List (CylinderSetting R)) (next : Nat) :
    let head := (Build.cylinder settings next).1.head
    ofHead head = ofSettings settings ∧
      ((∃ fault, ofHead head = .error fault) ↔
        ∃ face, ∀ girth ∈ Girth.ofFace face, ∀ setting ∈ settings, setting.girth? girth = none) ∧
      ∀ face : Face,
        let others := settings.filter (!isOwn face.other ·)
        faceRadius head face = faceRadius (Build.cylinder others next).1.head face := by
  intro head
  have hread : ofHead head = ofSettings settings := ofHead_ofSettings settings
  refine ⟨hread, ?_, fun face => ?_⟩
  · rw [hread, exists_ofSettings_error_iff]
    simp only [radius?_eq_none_iff]
  · show faceRadius (CylinderPlan.ofSettings _).head face =
      faceRadius (CylinderPlan.ofSettings _).head face
    rw [faceRadius_ofSettings, faceRadius_ofSettings, radius?_filter]

end Cylinder

end SolidScript
