import SolidScript.Extent.Basic
import SolidScript.Proofs.Fault.Collected
import SolidScript.Proofs.Space.Exact

/-!
# What a part with an extent has

Each rule for an extent, said of a case in which it gave one: the dimensions it read, and the box it
made of them and of the box of its profile. `Part.extent_ok` says which rule a part goes by.
-/

namespace SolidScript

open Space

variable {R : Type} [Field R] [Coordinate R]

/-- The box of an outline that is moved outwards by an amount, or inwards to its center at most. -/
def Space.Box.outlined (box : Box R) (amount : R) : Box R :=
  let grow : Vec3 R := ⟨amount, amount, 0⟩
  if Coordinate.atMost 0 amount then ⟨box.min - grow, box.max + grow⟩
  else ⟨(box.min - grow).least box.center, (box.max + grow).greatest box.center⟩

/-- The box of a profile and of its top, which may be scaled. -/
def Space.Box.withTop (box : Box R) (scale : Option (Vec3 R)) : Box R :=
  box.union <| match scale with
    | some s => Box.ofPoints [box.min.scale ⟨s.x, s.y, 1⟩, box.max.scale ⟨s.x, s.y, 1⟩]
    | none => box

namespace Head

/-- The size of a cube: in first place or by name, and one by default. -/
def cubeSize (head : Head R) : Except Fault (Vec3 R) :=
  match head.args.head? <|> head.named.get? "size" with
  | none => .ok ⟨1, 1, 1⟩
  | some value =>
    match value.vector? with
    | some size => .ok size
    | none => .error .cubeSize

/-- The height of a lifted profile: by name or in first place, and 100 by default. -/
def liftHeight (head : Head R) : Except Fault R :=
  (head.number? "height").map fun named =>
    named.getD (head.firstNumber?.getD (Coordinate.ofInt 100))

/-- The amount by which an outline is moved: its radius, or else its delta, or nothing. -/
def outlineAmount (head : Head R) : Except Fault R := do
  let radius ← head.number? "r"
  let delta ← if radius.isSome then .ok none else head.number? "delta"
  return (radius <|> delta).getD 0

variable {head : Head R} {extent profile : Extent R}

theorem cubeExtent_eq (head : Head R) :
    head.cubeExtent = head.cubeSize.map fun size =>
      let box : Box R := ⟨0, size⟩
      .ofBox (if head.isSet "center" then box.shift (-size).half else box) := by
  unfold cubeExtent cubeSize
  cases head.args.head? <|> head.named.get? "size" with
  | none => rfl
  | some value => cases hvalue : value.vector? <;> simp only [hvalue] <;> rfl

theorem cubeExtent_ok (h : head.cubeExtent = .ok extent) :
    ∃ size, head.cubeSize = .ok size ∧
      (extent.box = ⟨0, size⟩ ∨ ∃ offset, extent.box = Box.shift ⟨0, size⟩ offset) := by
  rw [cubeExtent_eq] at h
  obtain ⟨size, hsize, rfl⟩ := Fault.exists_of_map h
  refine ⟨size, hsize, ?_⟩
  dsimp only [Extent.ofBox]
  split
  · exact .inr ⟨_, rfl⟩
  · exact .inl rfl

theorem cylinderExtent_ok (h : head.cylinderExtent = .ok extent) :
    ∃ c, Cylinder.ofHead head = .ok c ∧ ∃ box : Box R,
      box = ⟨⟨-c.greaterRadius, -c.greaterRadius, 0⟩,
        ⟨c.greaterRadius, c.greaterRadius, c.height⟩⟩ ∧
      (extent.box = box ∨ ∃ offset, extent.box = box.shift offset) := by
  unfold cylinderExtent at h
  obtain ⟨c, hc, h⟩ := Fault.exists_of_bind h
  cases h
  refine ⟨c, hc, _, rfl, ?_⟩
  dsimp only [Extent.ofBox]
  split
  · exact .inr ⟨_, rfl⟩
  · exact .inl rfl

theorem liftedExtent_eq (head : Head R) (profile : Extent R) :
    head.liftedExtent profile = head.liftHeight.map fun height =>
      let whole := profile.box.withTop ((head.named.get? "scale").bind Value.vector?)
      let ground := if head.isSet "center" then -height / (1 + 1) else 0
      ⟨⟨⟨whole.min.x, whole.min.y, ground⟩, ⟨whole.max.x, whole.max.y, ground + height⟩⟩,
        ⟨profile.centroid.x, profile.centroid.y, ground + height / (1 + 1)⟩⟩ := by
  unfold liftedExtent liftHeight
  cases head.number? "height" <;> rfl

theorem liftedExtent_ok (h : head.liftedExtent profile = .ok extent) :
    ∃ height, head.liftHeight = .ok height ∧ ∃ whole scale ground,
      whole = profile.box.withTop scale ∧
      extent.box = ⟨⟨whole.min.x, whole.min.y, ground⟩,
        ⟨whole.max.x, whole.max.y, ground + height⟩⟩ := by
  rw [liftedExtent_eq] at h
  obtain ⟨height, hheight, rfl⟩ := Fault.exists_of_map h
  exact ⟨height, hheight, _, _, _, rfl, rfl⟩

theorem outlinedExtent_eq (head : Head R) (profile : Extent R) :
    head.outlinedExtent profile = head.outlineAmount.map fun amount =>
      ⟨profile.box.outlined amount, profile.centroid⟩ := by
  unfold outlinedExtent outlineAmount
  cases head.number? "r" with
  | error fault => rfl
  | ok radius =>
    cases radius with
    | some r => rfl
    | none => cases head.number? "delta" <;> rfl

theorem outlinedExtent_ok (h : head.outlinedExtent profile = .ok extent) :
    ∃ amount, extent.box = profile.box.outlined amount := by
  rw [outlinedExtent_eq] at h
  obtain ⟨amount, -, rfl⟩ := Fault.exists_of_map h
  exact ⟨amount, rfl⟩

/-- What an extrusion, an outline or a projection makes of a profile. -/
def reshape? (head : Head R) : Option (Extent R → Except Fault (Extent R)) :=
  match head.kind with
  | .linearExtrude => some head.liftedExtent
  | .rotateExtrude => some fun profile => .ok (sweptExtent profile)
  | .offset => some head.outlinedExtent
  | .projection => some fun profile => .ok (shadowExtent profile)
  | _ => none

end Head

namespace Part

variable [BEq R] {part : Part R} {extent : Extent R}

theorem extent_eq (part : Part R) :
    part.extent = extentRule part.head (part.parts.map Part.extent) := fold_eq _ _

theorem extent_ok (h : part.extent = .ok extent) :
    (part.head.kind = .cube ∧ part.head.cubeExtent = .ok extent) ∨
      (part.head.kind = .cylinder ∧ part.head.cylinderExtent = .ok extent) ∨
      ∃ extents, Fault.collect (part.parts.map Part.extent) = .ok extents ∧
        part.head.extentOf extents = .ok extent := by
  rw [extent_eq, extentRule] at h
  split at h
  · rename_i hkind
    exact .inl ⟨hkind, h⟩
  · rename_i hkind
    exact .inr (.inl ⟨hkind, h⟩)
  · obtain ⟨extents, hcollect, h⟩ := Fault.exists_of_bind h
    exact .inr (.inr ⟨extents, hcollect, h⟩)

/-- What an operation acts on: the extent of its single part, or of its parts as a group. -/
def profile (part : Part R) : Except Fault (Extent R) :=
  (Fault.collect (part.parts.map Part.extent)).map Extent.inner

/-- Where a part reshapes its profile, the parts below it count only for the profile. -/
theorem extent_of_reshape? {change : Extent R → Except Fault (Extent R)} {profile : Extent R}
    (hchange : part.head.reshape? = some change) (hprofile : part.profile = .ok profile) :
    part.extent = change profile := by
  obtain ⟨extents, hcollect, rfl⟩ := Fault.exists_of_map hprofile
  rw [extent_eq, extentRule, hcollect]
  unfold Head.reshape? at hchange
  split at hchange
  case h_5 => cases hchange
  all_goals
    rename_i hkind
    cases hchange
    rw [hkind]
    show part.head.extentOf extents = _
    unfold Head.extentOf
    rw [hkind]

theorem extent_of_outline {amount : R} {profile : Extent R} (hkind : part.head.kind = .offset)
    (hamount : part.head.outlineAmount = .ok amount) (hprofile : part.profile = .ok profile) :
    part.extent = .ok ⟨profile.box.outlined amount, profile.centroid⟩ := by
  have hchange : part.head.reshape? = some part.head.outlinedExtent := by
    rw [Head.reshape?, hkind]
  rw [extent_of_reshape? hchange hprofile, Head.outlinedExtent_eq, hamount]
  rfl

end Part

end SolidScript
