import SolidScript.Proofs.Group.Members
import SolidScript.Proofs.Script.Calls

/-!
# What a group keeps

Whether a group takes in a part in its place is told by the kind and the label of the part alone,
and a part that is taken in leaves nothing of itself, its arguments included. `within_groupAs_iff`
says which parts stay: those that stand within a part that is not absorbed, itself perhaps, and the
calls of these are all in the text of the group. Groups are built without arguments, but one that is
made as any other module may have some, and loses them (`arch_dissolved`).
-/

namespace SolidScript

open SolidScript.Part

/-- A part with this head is written with arguments: it is called, and some of its arguments are not
internal. -/
def Head.WritesArguments (head : Head Float) : Prop :=
  head.kind.isGlyph = false ∧ (head.args ≠ [] ∨ Script.written head.named ≠ [])

namespace Build

/-- A part that is written with arguments stands within a group exactly if it stands within a part
there that the group does not absorb. The call of each part within a group is in its text. -/
theorem within_groupAs_iff (role : Role) (kind : Kind) (parts : List (Part Float))
    {inner : Part Float} (hwrites : inner.head.WritesArguments) (next : Nat) :
    (Within inner (groupAs role kind parts next).1 ↔
      ∃ part ∈ parts, ∃ kept, ¬kept.isAbsorbedBy kind ∧ Within kept part ∧ Within inner kept) ∧
    (Within inner (groupAs role kind parts next).1 → ∀ {text},
      (groupAs role kind parts next).1.script = .ok text →
        ∃ call, Script.opening inner.head = .ok call ∧ call.toList <:+: text.toList) := by
  refine ⟨?_, fun h {_} hscript => call_infix_script h hscript⟩
  have hne : inner ≠ (groupAs role kind parts next).1 := by
    rintro rfl
    rcases hwrites.2 with hargs | hnamed
    · exact hargs rfl
    · exact hnamed rfl
  rw [within_iff, or_iff_right hne]
  show (∃ member ∈ membersOf kind parts, Within inner member) ↔ _
  simp only [mem_membersOf_iff]
  constructor
  · rintro ⟨member, ⟨part, hpart, hmember⟩, hw⟩
    exact ⟨part, hpart, exists_member_iff.mp ⟨member, hmember, hw⟩⟩
  · rintro ⟨part, hpart, hkept⟩
    obtain ⟨member, hmember, hw⟩ := exists_member_iff.mpr hkept
    exact ⟨member, ⟨part, hpart, hmember⟩, hw⟩

end Build

/-! ## A union with a fragment count -/

namespace Part

def stone : Part Float := ⟨0, .ofKind .cube [] ∅ .plain, []⟩

/-- A union made as any other module, with a fragment count for its parts. -/
def arch : Part Float := (Build.raw "union" [stone] [] (.ofList [("fn", .int 50)]) 1).1

/-- The union with the fragment count, in a union that was given a label. -/
def gate : Part Float :=
  ⟨2, { Head.ofKind .union [] ∅ .group with label := some "gate" }, [arch]⟩

theorem writesArguments_arch : arch.head.WritesArguments :=
  ⟨rfl, .inr fun h => absurd (congrArg List.length h) (by decide)⟩

/-- A hull takes in the union with the fragment count, but keeps it below a part with a label. -/
theorem arch_kept_in_gate :
    arch.head.WritesArguments ∧ Within arch (Build.hull [arch, gate] 3).1 ∧
      ∀ {text}, (Build.hull [arch, gate] 3).1.script = .ok text →
        ∃ call, Script.opening arch.head = .ok call ∧ call.toList <:+: text.toList := by
  obtain ⟨hiff, hcalls⟩ :=
    Build.within_groupAs_iff .group .hull [arch, gate] writesArguments_arch 3
  have hkept : Within arch (Build.hull [arch, gate] 3).1 := by
    refine hiff.mpr ⟨gate, List.mem_cons_of_mem _ List.mem_cons_self, gate, by decide, .self, ?_⟩
    exact .of_mem List.mem_cons_self
  exact ⟨writesArguments_arch, hkept, hcalls hkept⟩

/-- A union takes in the stone in place of the union around it, whose fragment count is not written
then. -/
theorem arch_dissolved :
    arch.head.WritesArguments ∧ ¬Within arch (Build.union [arch] 2).1 ∧
      arch.script = .ok "union($fn=50)cube();" ∧
      (Build.union [arch] 2).1.script = .ok "union()cube();" := by
  refine ⟨writesArguments_arch, fun h => ?_, rfl, rfl⟩
  rcases within_iff.mp h with heq | ⟨inner, hinner, hw⟩
  · exact absurd (congrArg Part.serial heq) (by decide)
  · have hstone : inner = stone := List.mem_singleton.mp hinner
    subst hstone
    exact absurd hw.size_le (by decide)

end Part

end SolidScript
