import SolidScript.Proofs.Search.Places
import SolidScript.Proofs.Session.Depths

/-!
# The order of a walk

A walk lists a model deepest first. The agenda is worked off part by part (`Part.listFrom_enters`),
so the list of a part is made of the lists of the parts below it, by depth, and the part itself
(`Part.deepestFirst_eq`).

`Part.places` are the places of a model in the same order, and `Part.IsListing` says what order this
is: every place once, those below a place in one block that ends with it, and of the blocks below
one place the deeper first, equal depths by their slots. In a session the depths that a walk goes by
are right whatever was asked before, so every walk lists the model by its places
(`World.deepestFirst_listing`).
-/

namespace SolidScript

open SolidScript.Part Relation

namespace Part

variable {R : Type} {key key' : Part R → Nat} {part inner : Part R}

/-! ## The walk as a recursion -/

theorem listFrom_behind (key : Part R → Nat) (agenda : List (Visit R))
    (done before : List (Part R)) :
    listFrom key agenda (done ++ before) = before.reverse ++ listFrom key agenda done := by
  induction agenda, done using listFrom.induct key with
  | case1 done => rw [listFrom, listFrom, List.reverse_append]
  | case2 done part rest ih => rw [listFrom, listFrom, ← ih, List.cons_append]
  | case3 done part rest ih => rw [listFrom, listFrom, ih]

theorem listFrom_append (key : Part R → Nat) (front rest : List (Visit R)) (done : List (Part R)) :
    listFrom key (front ++ rest) done = listFrom key rest (listFrom key front done).reverse := by
  induction front, done using listFrom.induct key with
  | case1 done => rw [listFrom, List.reverse_reverse, List.nil_append]
  | case2 done part front ih => rw [List.cons_append, listFrom, listFrom, ih]
  | case3 done part front ih =>
    rw [List.cons_append, listFrom, listFrom, ← ih, expand, expand, List.append_assoc,
      List.cons_append]

/-- Each part on the agenda is listed with all that it holds before the next one. -/
theorem listFrom_enters (key : Part R → Nat) (parts : List (Part R)) (rest : List (Visit R)) :
    listFrom key (parts.map .enter ++ rest) [] =
      parts.flatMap (deepestFirst key) ++ listFrom key rest [] := by
  induction parts with
  | nil => rfl
  | cons part parts ih =>
    rw [List.map_cons, List.cons_append, ← List.singleton_append, listFrom_append,
      ← List.nil_append (listFrom key [.enter part] []).reverse, listFrom_behind,
      List.reverse_reverse, ih, List.flatMap_cons, List.append_assoc]
    rfl

/-- The lists of the parts below a part, by depth, and then the part. -/
theorem deepestFirst_eq (key : Part R → Nat) (part : Part R) :
    part.deepestFirst key = (byDepth key part.parts).flatMap (deepestFirst key) ++ [part] := by
  have hleave : listFrom key [.leave part] [] = [part] := by
    rw [listFrom, listFrom, List.reverse_singleton]
  rw [deepestFirst, listFrom, expand, listFrom_enters, hleave]

theorem mem_byDepth {parts : List (Part R)} : inner ∈ byDepth key parts ↔ inner ∈ parts :=
  List.mem_mergeSort

theorem mem_deepestFirst : inner ∈ part.deepestFirst key ↔ Within inner part := by
  induction part using Part.induction with
  | step part ih =>
    rw [deepestFirst_eq, List.mem_append, List.mem_singleton, List.mem_flatMap, within_iff, or_comm]
    refine or_congr_right (exists_congr fun child => ?_)
    rw [mem_byDepth]
    exact and_congr_right (ih child)

theorem byDepth_congr {parts : List (Part R)} (h : ∀ inner ∈ parts, key inner = key' inner) :
    byDepth key parts = byDepth key' parts := by
  have hsorted := List.map_mergeSort (f := id) (r := fun a b => key b ≤ key a)
    (s := fun a b => key' b ≤ key' a) (l := parts) fun a ha b hb => by simp [h a ha, h b hb]
  rwa [List.map_id, List.map_id] at hsorted

theorem deepestFirst_congr (h : ∀ inner, Within inner part → key inner = key' inner) :
    part.deepestFirst key = part.deepestFirst key' := by
  induction part using Part.induction with
  | step part ih =>
    obtain ⟨-, hbelow⟩ := forall_within_iff.mp h
    have hparts : byDepth key part.parts = byDepth key' part.parts :=
      byDepth_congr fun inner hinner => hbelow inner hinner inner .self
    rw [deepestFirst_eq, deepestFirst_eq, hparts]
    refine congrArg (· ++ [part]) (List.flatMap_congr fun inner hinner => ?_)
    exact ih inner (mem_byDepth.mp hinner) (hbelow inner (mem_byDepth.mp hinner))

/-! ## Slots by depth -/

/-- Of two parts in slots of one part the deeper goes first, and of equal depths the one in the
earlier slot. -/
def Precedes (entry other : Part R × Nat) : Prop :=
  other.1.depth < entry.1.depth ∨ other.1.depth = entry.1.depth ∧ entry.2 < other.2

theorem Precedes.asymm {entry other : Part R × Nat} (h : Precedes entry other) :
    ¬Precedes other entry := by
  unfold Precedes at *
  omega

/-- The parts below a part with their slots, in the order of a walk. -/
def placed (part : Part R) : List (Part R × Nat) :=
  part.parts.zipIdx.mergeSort (List.zipIdxLE fun a b => decide (b.depth ≤ a.depth))

theorem placed_perm (part : Part R) : part.placed.Perm part.parts.zipIdx :=
  List.mergeSort_perm _ _

theorem mem_placed {entry : Part R × Nat} :
    entry ∈ part.placed ↔ part.parts[entry.2]? = some entry.1 :=
  part.placed_perm.mem_iff.trans List.mem_zipIdx_iff_getElem?

/-- Without the slots these are the parts by depth, in order where depths are equal. -/
theorem map_fst_placed (part : Part R) :
    part.placed.map Prod.fst = byDepth Part.depth part.parts := List.mergeSort_zipIdx

theorem precedes_of_zipIdxLE {entry other : Part R × Nat}
    (hle : List.zipIdxLE (fun a b => decide (b.depth ≤ a.depth)) entry other = true)
    (hne : entry.2 ≠ other.2) : Precedes entry other := by
  unfold List.zipIdxLE at hle
  split at hle
  · rename_i hdepth
    have hdepth := of_decide_eq_true hdepth
    split at hle
    · rename_i hback
      have heq : other.1.depth = entry.1.depth := hdepth.antisymm (of_decide_eq_true hback)
      exact .inr ⟨heq, lt_of_le_of_ne (of_decide_eq_true hle) hne⟩
    · rename_i hback
      exact .inl (Nat.lt_of_not_le fun hge => hback (decide_eq_true hge))
  · cases hle

theorem placed_pairwise (part : Part R) : part.placed.Pairwise Precedes := by
  have hslots : (part.placed.map Prod.snd).Nodup := by
    rw [(part.placed_perm.map Prod.snd).nodup_iff, List.zipIdx_map_snd]
    exact List.nodup_range'
  have hsorted : part.placed.Pairwise fun entry other =>
      List.zipIdxLE (fun a b => decide (b.depth ≤ a.depth)) entry other = true := by
    refine List.pairwise_mergeSort (List.zipIdxLE_trans fun a b c hab hbc => ?_)
      (List.zipIdxLE_total fun a b => ?_) _
    · exact decide_eq_true ((of_decide_eq_true hbc).trans (of_decide_eq_true hab))
    · simpa using Nat.le_total b.depth a.depth
  exact (hsorted.and (List.pairwise_map.mp hslots)).imp fun h => precedes_of_zipIdxLE h.1 h.2

/-! ## Places in the order of a walk -/

/-- The places of a model: those in each slot, by depth, and then the top. -/
def places (part : Part R) : List Place :=
  (part.placed.attach.flatMap fun ⟨entry, _⟩ => entry.1.places.map (entry.2 :: ·)) ++ [[]]
termination_by part.size
decreasing_by
  rename_i hentry
  exact size_lt_of_mem (List.mem_of_getElem? (mem_placed.mp hentry))

theorem places_eq (part : Part R) :
    part.places = (part.placed.flatMap fun entry => entry.1.places.map (entry.2 :: ·)) ++ [[]] := by
  rw [places, List.flatMap_subtype (g := fun entry => entry.1.places.map (entry.2 :: ·))
    fun _ _ => rfl, List.unattach_attach]

/-- The order of a walk: what is under a place before the place, and beside each other as the slots
are placed. -/
inductive ListedBefore : Part R → Place → Place → Prop where
  | under (part : Part R) (slot : Nat) (rest : Place) : ListedBefore part (slot :: rest) []
  | beside {part : Part R} {entry other : Part R × Nat} (rest rest' : Place) :
    part.parts[entry.2]? = some entry.1 → part.parts[other.2]? = some other.1 →
      Precedes entry other → ListedBefore part (entry.2 :: rest) (other.2 :: rest')
  | inside {part inner : Part R} {slot : Nat} {rest rest' : Place} :
    part.parts[slot]? = some inner → ListedBefore inner rest rest' →
      ListedBefore part (slot :: rest) (slot :: rest')

theorem Precedes.slot_ne {entry other : Part R × Nat} (h : Precedes entry other)
    (hentry : part.parts[entry.2]? = some entry.1) (hother : part.parts[other.2]? = some other.1) :
    entry.2 ≠ other.2 := by
  intro hslot
  rw [hslot, hother] at hentry
  rcases h with hdepth | ⟨-, hlt⟩
  · rw [Option.some.inj hentry] at hdepth
    exact Nat.lt_irrefl _ hdepth
  · exact hlt.ne hslot

theorem ListedBefore.not_prefix {place other : Place} (h : ListedBefore part place other) :
    ¬place <+: other := by
  induction h with
  | under => exact fun hprefix => List.cons_ne_nil _ _ (List.prefix_nil.mp hprefix)
  | beside rest rest' hentry hother hprecedes =>
    exact fun hprefix => hprecedes.slot_ne hentry hother (List.cons_prefix_cons.mp hprefix).1
  | inside hslot _ ih => exact fun hprefix => ih (List.cons_prefix_cons.mp hprefix).2

/-- The places of a model in the order of a walk: each once, and after all under it. The places from
one on down are a block that ends with this place. -/
structure IsListing (part : Part R) (places : List Place) : Prop where
  mem_iff : ∀ place, place ∈ places ↔ ∃ inner, part.atPlace? place = some inner
  nodup : places.Nodup
  ordered : places.Pairwise (ListedBefore part)
  upward : places.Pairwise fun earlier later => ¬earlier <+: later
  block : ∀ place ∈ places, ∃ front block back, places = front ++ (block ++ [place]) ++ back ∧
    ∀ other, other ∈ block ++ [place] ↔ place <+: other ∧ other ∈ places
  last : places.getLast? = some []

theorem mem_places {place : Place} :
    place ∈ part.places ↔ ∃ inner, part.atPlace? place = some inner := by
  induction place generalizing part with
  | nil =>
    rw [places_eq]
    exact iff_of_true (List.mem_append_right _ List.mem_cons_self) ⟨part, rfl⟩
  | cons slot rest ih =>
    rw [places_eq, List.mem_append, List.mem_singleton, or_iff_left (List.cons_ne_nil _ _),
      List.mem_flatMap]
    constructor
    · rintro ⟨entry, hentry, hmem⟩
      obtain ⟨place, hplace, heq⟩ := List.mem_map.mp hmem
      obtain ⟨rfl, rfl⟩ := List.cons.inj heq
      obtain ⟨inner, hinner⟩ := ih.mp hplace
      exact ⟨inner, atPlace?_cons_eq_some_iff.mpr ⟨_, mem_placed.mp hentry, hinner⟩⟩
    · rintro ⟨inner, hinner⟩
      obtain ⟨child, hchild, hrest⟩ := atPlace?_cons_eq_some_iff.mp hinner
      exact ⟨(child, slot), mem_placed.mpr hchild, List.mem_map_of_mem (ih.mpr ⟨inner, hrest⟩)⟩

theorem places_pairwise (part : Part R) : part.places.Pairwise (ListedBefore part) := by
  induction part using Part.induction with
  | step part ih =>
    rw [places_eq, List.pairwise_append, List.pairwise_flatMap]
    refine ⟨⟨fun entry hentry => ?_, ?_⟩, List.pairwise_singleton _ _, ?_⟩
    · -- In one slot the order is that of its part.
      have hslot := mem_placed.mp hentry
      have hinner := ih entry.1 (List.mem_of_getElem? hslot)
      exact List.pairwise_map.mpr (hinner.imp fun hlisted => .inside hslot hlisted)
    · refine part.placed_pairwise.imp_of_mem fun hentry hother hprecedes => ?_
      intro place hplace place' hplace'
      obtain ⟨rest, -, rfl⟩ := List.mem_map.mp hplace
      obtain ⟨rest', -, rfl⟩ := List.mem_map.mp hplace'
      exact .beside rest rest' (mem_placed.mp hentry) (mem_placed.mp hother) hprecedes
    · intro place hplace top htop
      obtain ⟨entry, -, hmem⟩ := List.mem_flatMap.mp hplace
      obtain ⟨rest, -, rfl⟩ := List.mem_map.mp hmem
      exact List.mem_singleton.mp htop ▸ .under part entry.2 rest

/-- From a place on down, the places of the part that stands there come one after another. -/
theorem places_block {place : Place} (h : part.atPlace? place = some inner) :
    ∃ front back, part.places = front ++ inner.places.map (place ++ ·) ++ back := by
  induction place generalizing part with
  | nil =>
    obtain rfl := Option.some.inj h
    exact ⟨[], [], by simp⟩
  | cons slot rest ih =>
    obtain ⟨child, hchild, hrest⟩ := atPlace?_cons_eq_some_iff.mp h
    obtain ⟨front, back, hplaces⟩ := ih hrest
    have hmem : (child, slot) ∈ part.placed := mem_placed.mpr hchild
    obtain ⟨first, others, hplaced⟩ := List.append_of_mem hmem
    let below (entry : Part R × Nat) : List Place := entry.1.places.map (entry.2 :: ·)
    refine ⟨first.flatMap below ++ front.map (slot :: ·),
      back.map (slot :: ·) ++ others.flatMap below ++ [[]], ?_⟩
    rw [places_eq, hplaced, List.flatMap_append, List.flatMap_cons, hplaces]
    simp [below]

theorem atPlace?_append {place : Place} (h : part.atPlace? place = some inner) (rest : Place) :
    part.atPlace? (place ++ rest) = inner.atPlace? rest := by
  induction place generalizing part with
  | nil =>
    rw [Option.some.inj h]
    rfl
  | cons slot place ih =>
    obtain ⟨child, hchild, hplace⟩ := atPlace?_cons_eq_some_iff.mp h
    rw [List.cons_append, atPlace?, hchild, Option.bind_some, ih hplace]

theorem mem_block_iff {place other : Place} (h : part.atPlace? place = some inner) :
    other ∈ inner.places.map (place ++ ·) ↔ place <+: other ∧ other ∈ part.places := by
  rw [List.mem_map]
  constructor
  · rintro ⟨rest, hrest, rfl⟩
    refine ⟨List.prefix_append place rest, mem_places.mpr ?_⟩
    rw [atPlace?_append h]
    exact mem_places.mp hrest
  · rintro ⟨⟨rest, rfl⟩, hother⟩
    rw [mem_places, atPlace?_append h] at hother
    exact ⟨rest, mem_places.mpr hother, rfl⟩

theorem exists_block_eq (inner : Part R) (place : Place) :
    ∃ block, inner.places.map (place ++ ·) = block ++ [place] := by
  rw [places_eq, List.map_append, List.map_singleton, List.append_nil]
  exact ⟨_, rfl⟩

theorem isListing_places (part : Part R) : IsListing part part.places where
  mem_iff _ := mem_places
  nodup := part.places_pairwise.imp fun h => fun heq => h.not_prefix (heq ▸ List.prefix_rfl)
  ordered := part.places_pairwise
  upward := part.places_pairwise.imp ListedBefore.not_prefix
  block place hplace := by
    obtain ⟨inner, hinner⟩ := mem_places.mp hplace
    obtain ⟨front, back, hplaces⟩ := places_block hinner
    obtain ⟨block, hblock⟩ := exists_block_eq inner place
    refine ⟨front, block, back, by rw [hplaces, hblock], fun other => ?_⟩
    rw [← hblock]
    exact mem_block_iff hinner
  last := by rw [places_eq, List.getLast?_concat]

/-- A walk by depths lists the parts of a model by its places. -/
theorem map_atPlace?_places (part : Part R) :
    part.places.map part.atPlace? = (part.deepestFirst Part.depth).map some := by
  induction part using Part.induction with
  | step part ih =>
    rw [places_eq, deepestFirst_eq, ← map_fst_placed, List.map_append, List.map_append,
      List.map_flatMap, List.map_flatMap, List.flatMap_map]
    refine congrArg (· ++ [some part]) (List.flatMap_congr fun entry hentry => ?_)
    have hslot := mem_placed.mp hentry
    rw [← ih entry.1 (List.mem_of_getElem? hslot), List.map_map]
    refine List.map_congr_left fun rest _ => ?_
    rw [Function.comp_apply, atPlace?, hslot, Option.bind_some]

end Part

/-! ## Walks in a session -/

namespace World

variable {start world : World} {part : Part Float}

theorem Fathomed.deepestFirst_eq (h : world.Fathomed) (hpart : part ∈ world.parts) :
    (Session.deepestFirst part world.session).1 =
      (part.deepestFirst Part.depth).map fun inner => (inner, inner.depth) := by
  obtain ⟨-, -, hkept, fathomed⟩ := h.depth_eq hpart
  -- All depths that the walk goes by are kept once that of the part is.
  have hdepths : ∀ inner, Within inner part →
      ((world.after (Session.depth part)).session.depths.get? inner).getD 0 = inner.depth := by
    intro inner hinner
    have hmem := Memo.mem_kept.mp (fathomed.depths.closed.within fathomed.heap hpart
      (Option.isSome_iff_exists.mpr ⟨_, hkept⟩) hinner)
    obtain ⟨depth, hdepth⟩ := Option.isSome_iff_exists.mp hmem
    rw [hdepth, Option.getD_some]
    exact fathomed.depths.holds inner (fathomed.heap.within_mem hpart hinner) depth hdepth
  show (part.deepestFirst fun inner =>
    ((world.after (Session.depth part)).session.depths.get? inner).getD 0).map _ = _
  rw [deepestFirst_congr hdepths]
  refine List.map_congr_left fun inner hinner => congrArg (Prod.mk inner) ?_
  exact hdepths inner (mem_deepestFirst.mp hinner)

/-- In a session on any heap, after any number of steps, a walk lists each part once for each place
where it stands, with its depth: after all parts below it, which make up one block with it, and
these blocks by depth, equal depths in the order of the slots. So it is made of the walks of the
parts below, by depth, and the part itself at the end. -/
theorem deepestFirst_listing (hstart : start.IsUnfathomed)
    (steps : ReflTransGen Advance start world) (hpart : part ∈ world.parts) :
    ∃ places, IsListing part places ∧
      (Session.deepestFirst part world.session).1.map (fun entry => some entry.1) =
        places.map part.atPlace? ∧
      (∀ entry ∈ (Session.deepestFirst part world.session).1, entry.2 = entry.1.depth) ∧
      ∃ below : List (Part Float × Nat), below.Perm part.parts.zipIdx ∧ below.Pairwise Precedes ∧
        (Session.deepestFirst part world.session).1 =
          (below.flatMap fun entry => (Session.deepestFirst entry.1 world.session).1) ++
            [(part, part.depth)] := by
  have fathomed := hstart.fathomed_of_advances steps
  have hlisted := fathomed.deepestFirst_eq hpart
  refine ⟨part.places, isListing_places part, ?_, ?_, part.placed, part.placed_perm,
    part.placed_pairwise, ?_⟩
  · rw [hlisted, List.map_map, map_atPlace?_places]
    rfl
  · rw [hlisted]
    rintro _ hentry
    obtain ⟨inner, -, rfl⟩ := List.mem_map.mp hentry
    rfl
  · rw [hlisted, Part.deepestFirst_eq, ← map_fst_placed, List.flatMap_map, List.map_append,
      List.map_flatMap]
    refine congrArg (· ++ [(part, part.depth)]) (List.flatMap_congr fun entry hentry => ?_)
    have hinner := List.mem_of_getElem? (mem_placed.mp hentry)
    exact (fathomed.deepestFirst_eq (fathomed.heap.closed part hpart _ hinner)).symm

/-- The jewel has its mount twice, and lists both before the gem between them. -/
theorem deepestFirst_listing_jewel :
    ReflTransGen Advance initial withJewel ∧ jewel ∈ withJewel.parts ∧
      (Session.deepestFirst jewel withJewel.session).1 =
        [(gem, 0), (mount, 1), (gem, 0), (mount, 1), (gem, 0), (jewel, 2)] := by
  have hjewel : jewel ∈ withJewel.parts := .inr (mem_contents_of_mem List.mem_cons_self)
  have heap := (initial_isUnfathomed.fathomed_of_advances advances_withJewel).heap
  have hmount := heap.closed jewel hjewel mount List.mem_cons_self
  have hgem := heap.closed mount hmount gem List.mem_cons_self
  obtain ⟨-, -, -, -, below, hperm, -, hgems⟩ :=
    deepestFirst_listing initial_isUnfathomed advances_withJewel hgem
  obtain rfl := List.perm_nil.mp hperm
  obtain ⟨-, -, -, -, below, hperm, -, hmounts⟩ :=
    deepestFirst_listing initial_isUnfathomed advances_withJewel hmount
  obtain rfl := List.perm_singleton.mp hperm
  obtain ⟨-, -, -, -, below, hperm, hpairwise, hlisted⟩ :=
    deepestFirst_listing initial_isUnfathomed advances_withJewel hjewel
  -- The two mounts are deeper than the gem, and stay in order.
  have hbelow : below = [(mount, 0), (mount, 2), (gem, 1)] := by
    have hswap : [(mount, 0), (mount, 2), (gem, 1)].Perm jewel.parts.zipIdx :=
      .cons _ (.swap _ _ _)
    have hmount : mount.depth = 1 := rfl
    have hgem : gem.depth = 0 := rfl
    refine (hperm.trans hswap.symm).eq_of_pairwise (fun _ _ _ _ h h' => absurd h' h.asymm)
      hpairwise ?_
    simp [Precedes, hmount, hgem]
  refine ⟨advances_withJewel, hjewel, ?_⟩
  rw [hlisted, hbelow]
  simp only [List.flatMap_cons, List.flatMap_nil, hmounts, hgems]
  rfl

end World

end SolidScript
