import Telecontrol.Proofs.Splitting

/-! # Offering objects to a frame

A frame is **within limits** when its counter can count its objects, its octets are not too many
and, in a sequence, each address is its predecessor's plus one. To answer an offer a frame looks at
its type, the number of its objects and the last address only. This is enough as long as the limits
hold before the offer, so that they are an invariant of all offers.

The addresses have three octets here. With all 32 bits in use the highest address would be followed
by zero, and a sequence would go on there.

Main statements: `Frame.WithinLimits.tryAdd_eq_some_push_iff` (an object is taken exactly when the
limits hold with it), `Frame.WithinLimits.offer` (no offer breaks a limit),
`Frame.objects_offer_of_gapless` (a frame is filled up to its capacity) and
`Frame.header_filled`. -/

namespace Telecontrol

/-! ## The next address -/

/-- Addresses grow without a gap at the end if the new one follows the last. -/
theorem gapless_concat {l : List ObjectAddress} {a : ObjectAddress} :
    Gapless (l ++ [a]) ↔ Gapless l ∧ ∀ last ∈ l.getLast?, a.toNat = last.toNat + 1 := by
  rw [Gapless, List.isChain_append]
  simp [Gapless]

/-- Addresses of three octets do not wrap. -/
theorem eq_add_one_iff_of_le {a b : ObjectAddress} (ha : a ≤ maxObjectAddress) :
    b = a + 1 ↔ b.toNat = a.toNat + 1 := by
  refine ⟨?_, eq_add_one_of_toNat⟩
  rintro rfl
  have hmost : a.toNat ≤ 16777215 := UInt32.le_iff_toNat_le.mp ha
  have hmod : (a + 1).toNat = (a.toNat + 1) % 2 ^ 32 := UInt32.toNat_add a 1
  omega

namespace Frame

variable {f : Frame} {o : InformationObject} {os : List InformationObject}

/-! ## One offer -/

/-- The frame with one more object, whether there is room for it or not. -/
def push (f : Frame) (o : InformationObject) : Frame := { f with objects := f.objects ++ [o] }

/-- The frame **after** an object was offered to it. -/
def after (f : Frame) (o : InformationObject) : Frame := (f.tryAdd o).getD f

/-- A frame is **within limits** when its counter can count its objects, its octets are not too many
and, in a sequence, each address is its predecessor's plus one. -/
structure WithinLimits (f : Frame) : Prop where
  count : f.objects.length ≤ maxObjectCount
  octets : f.size ≤ maxFrameSize
  gapless : f.sequence = true → Gapless (f.objects.map (·.address))

/-- A frame without objects is within limits. -/
theorem WithinLimits.of_empty (hf : f.objects = []) : f.WithinLimits where
  count := by
    rw [hf]
    exact Nat.zero_le _
  octets := by
    rw [size, hf]
    exact show frameHeaderSize ≤ maxFrameSize by decide
  gapless _ := by
    rw [hf]
    exact .nil

/-- The room that a frame has is that of the frame with one more object. -/
theorem hasRoom_iff_push (f : Frame) (o : InformationObject) :
    f.hasRoom = true ↔
      (f.push o).objects.length ≤ maxObjectCount ∧ (f.push o).size ≤ maxFrameSize := by
  rw [hasRoom, Bool.and_eq_true, decide_eq_true_eq, decide_eq_true_eq, size, push,
    List.length_append, List.length_singleton]

/-- An address continues a frame unless it fails to follow the last address of a sequence. -/
theorem continues_iff {a : ObjectAddress} :
    f.continues a = true ↔
      (f.sequence = true → ∀ last ∈ f.objects.getLast?, a = last.address + 1) := by
  rw [continues]
  cases f.sequence <;> cases f.objects.getLast? <;> simp

/-- An address continues a frame exactly when the frame stays gapless with it. -/
theorem WithinLimits.continues_iff_push (hf : f.WithinLimits)
    (haddr : ∀ x ∈ f.objects, x.address ≤ maxObjectAddress) :
    f.continues o.address = true ↔
      (f.sequence = true → Gapless ((f.push o).objects.map (·.address))) := by
  rw [continues_iff]
  refine forall_congr' fun hseq => ?_
  rw [push, List.map_append, List.map_singleton, gapless_concat, List.getLast?_map,
    and_iff_right (hf.gapless hseq)]
  cases hlast : f.objects.getLast? with
  | none => simp
  | some last =>
    have hle : last.address ≤ maxObjectAddress := haddr last (List.mem_of_getLast? hlast)
    simpa using eq_add_one_iff_of_le hle

/-- **Refusal is exact.** A frame within limits takes an object exactly when the limits hold with
it. -/
theorem WithinLimits.tryAdd_eq_some_push_iff (hf : f.WithinLimits)
    (haddr : ∀ x ∈ f.objects, x.address ≤ maxObjectAddress) :
    f.tryAdd o = some (f.push o) ↔ (f.push o).WithinLimits := by
  have htry : f.tryAdd o = some (f.push o) ↔ f.hasRoom = true ∧ f.continues o.address = true :=
    (tryAdd_eq_some_iff ..).trans (and_iff_left rfl)
  rw [htry, f.hasRoom_iff_push o, hf.continues_iff_push haddr]
  exact ⟨fun h => ⟨h.1.1, h.1.2, h.2⟩, fun h => ⟨⟨h.count, h.octets⟩, h.gapless⟩⟩

/-- An object that is taken is put at the end, and one that is refused changes nothing. -/
theorem tryAdd_cases (f : Frame) (o : InformationObject) :
    (f.tryAdd o = some (f.push o) ∧ f.after o = f.push o) ∨
      (f.tryAdd o = none ∧ f.after o = f) := by
  rw [after]
  cases htry : f.tryAdd o with
  | some g =>
    obtain rfl := ((tryAdd_eq_some_iff ..).mp htry).2
    exact .inl ⟨rfl, rfl⟩
  | none => exact .inr ⟨rfl, rfl⟩

/-- A frame differs from the one before an offer in its objects only. -/
theorem fills_after (f : Frame) (o : InformationObject) : f.Fills (f.after o) := by
  rcases f.tryAdd_cases o with ⟨-, hafter⟩ | ⟨-, hafter⟩
  · rw [hafter]
    rfl
  · rw [hafter]
    rfl

/-- After an offer a frame holds what it held before, and perhaps the object that was offered. -/
theorem objects_after_subset : (f.after o).objects ⊆ f.objects ++ [o] := by
  rcases f.tryAdd_cases o with ⟨-, hafter⟩ | ⟨-, hafter⟩
  · rw [hafter]
    exact List.Subset.refl _
  · rw [hafter]
    exact List.subset_append_left ..

/-- An offer breaks no limit. -/
theorem WithinLimits.after (hf : f.WithinLimits)
    (haddr : ∀ x ∈ f.objects, x.address ≤ maxObjectAddress) : (f.after o).WithinLimits := by
  rcases f.tryAdd_cases o with ⟨htry, hafter⟩ | ⟨-, hafter⟩
  · rw [hafter]
    exact (hf.tryAdd_eq_some_push_iff haddr).mp htry
  · rw [hafter]
    exact hf

/-- How a frame **answers** an object that is offered to it, and which frame is left then. -/
structure Answers (f : Frame) (o : InformationObject) (answer : Bool) (g : Frame) : Prop where
  /-- The object that is taken is put at the end. -/
  taken : answer = true → f.tryAdd o = some g ∧ g = f.push o
  /-- The object that is refused changes nothing. -/
  refused : answer = false → f.tryAdd o = none ∧ g = f
  /-- The object is refused exactly when it would break a limit. -/
  refused_iff : answer = false ↔ ¬ (f.push o).WithinLimits

/-- A frame within limits answers as it should. -/
theorem WithinLimits.answers (hf : f.WithinLimits)
    (haddr : ∀ x ∈ f.objects, x.address ≤ maxObjectAddress) :
    f.Answers o (f.tryAdd o).isSome (f.after o) := by
  have hlimits := hf.tryAdd_eq_some_push_iff haddr (o := o)
  rcases f.tryAdd_cases o with ⟨htry, hafter⟩ | ⟨htry, hafter⟩
  · rw [htry] at hlimits
    rw [htry, hafter]
    exact ⟨fun _ => ⟨htry, rfl⟩, nofun, nofun, fun hbreaks => absurd (hlimits.mp rfl) hbreaks⟩
  · rw [htry] at hlimits
    rw [htry, hafter]
    have hbreaks : ¬ (f.push o).WithinLimits := fun hwithin => nomatch hlimits.mpr hwithin
    exact ⟨nofun, fun _ => ⟨htry, rfl⟩, fun _ => hbreaks, fun _ => rfl⟩

/-! ## One offer after the other -/

/-- No objects leave the frame as it is, and nothing is answered. -/
@[simp] theorem offer_nil : f.offer [] = (f, []) := rfl

/-- The first object is offered to the frame, the others to the frame after it. -/
@[simp] theorem offer_cons :
    f.offer (o :: os) =
      (((f.after o).offer os).1, (f.tryAdd o).isSome :: ((f.after o).offer os).2) := by
  rw [offer, after]
  cases f.tryAdd o <;> rfl

/-- Objects may be offered in two parts. -/
theorem offer_append (f : Frame) (os ps : List InformationObject) :
    f.offer (os ++ ps) =
      (((f.offer os).1.offer ps).1, (f.offer os).2 ++ ((f.offer os).1.offer ps).2) := by
  induction os generalizing f with
  | nil => rfl
  | cons o rest ih => rw [List.cons_append, offer_cons, offer_cons, ih, List.cons_append]

/-- Each object that is offered is answered. -/
@[simp] theorem length_offer (f : Frame) (os : List InformationObject) :
    (f.offer os).2.length = os.length := by
  induction os generalizing f with
  | nil => rfl
  | cons o rest ih => rw [offer_cons, List.length_cons, List.length_cons, ih]

/-- Offers change nothing but the objects of a frame. -/
theorem fills_offer (f : Frame) (os : List InformationObject) : f.Fills (f.offer os).1 := by
  induction os generalizing f with
  | nil => rfl
  | cons o rest ih => rw [offer_cons, Fills, ih (f.after o), f.fills_after o]

/-- **No offer breaks a limit.** -/
theorem WithinLimits.offer (hf : f.WithinLimits)
    (haddr : ∀ x ∈ f.objects ++ os, x.address ≤ maxObjectAddress) :
    (f.offer os).1.WithinLimits := by
  -- what is held and what is still to come have addresses of three octets
  induction os generalizing f with
  | nil => exact hf
  | cons o rest ih =>
    rw [offer_cons]
    refine ih (hf.after fun x hx => haddr x (List.mem_append_left _ hx)) fun x hx => haddr x ?_
    rcases List.mem_append.mp hx with hx | hx
    · have hold : x ∈ f.objects ++ [o] := objects_after_subset hx
      rw [List.append_cons]
      exact List.mem_append_left _ hold
    · exact List.mem_append_right _ (List.mem_cons_of_mem _ hx)

/-- The objects whose answers say that they were **taken**. -/
def taken (os : List InformationObject) (answers : List Bool) : List InformationObject :=
  ((os.zip answers).filter (·.2)).map (·.1)

/-- Answers to later objects do not matter. -/
theorem taken_append {answers : List Bool} (h : os.length = answers.length) (later : List Bool) :
    taken os (answers ++ later) = taken os answers := by
  have hzip : (os ++ []).zip (answers ++ later) = os.zip answers ++ [].zip later :=
    List.zip_append h
  rw [List.append_nil, List.zip_nil_left, List.append_nil] at hzip
  rw [taken, hzip, taken]

/-- What is taken was offered. -/
theorem taken_subset (answers : List Bool) : taken os answers ⊆ os := by
  intro x hx
  obtain ⟨⟨y, b⟩, hmem, rfl⟩ := List.mem_map.mp hx
  exact (List.of_mem_zip (List.mem_filter.mp hmem).1).1

/-- A frame holds what it held before the offers, and then what was taken, in the order of the
offers. -/
theorem objects_offer (f : Frame) (os : List InformationObject) :
    (f.offer os).1.objects = f.objects ++ taken os (f.offer os).2 := by
  induction os generalizing f with
  | nil => exact (List.append_nil _).symm
  | cons o rest ih =>
    rw [offer_cons, ih]
    rcases f.tryAdd_cases o with ⟨htry, hafter⟩ | ⟨htry, hafter⟩
    · rw [htry, hafter, push, List.append_assoc]
      rfl
    · rw [htry, hafter]
      rfl

/-- A frame whose capacity is reached stays as it is. -/
theorem offer_of_full (hfull : f.objects.length = capacity f.type f.sequence) :
    (f.offer os).1 = f := by
  induction os with
  | nil => rfl
  | cons o rest ih => rw [offer_cons, after, tryAdd_of_full hfull, Option.getD_none, ih]

/-- **A frame is filled up to its capacity.** If the addresses of a sequence have no gaps, objects
are taken until the capacity is reached, and none after that. -/
theorem objects_offer_of_gapless (hle : f.objects.length ≤ capacity f.type f.sequence)
    (hgap : f.sequence = true → Gapless ((f.objects ++ os).map (·.address))) :
    (f.offer os).1.objects = (f.objects ++ os).take (capacity f.type f.sequence) := by
  induction os generalizing f with
  | nil => rw [offer_nil, List.append_nil, List.take_of_length_le hle]
  | cons o rest ih =>
    rcases Nat.eq_or_lt_of_le hle with hfull | hlt
    -- a full frame refuses the rest, so that the gap left by this object does not matter
    · rw [offer_of_full hfull, ← hfull, List.take_left]
    · have hroom : f.hasRoom = true := f.hasRoom_iff.mpr hlt
      have hnext : f.tryAdd o = some (f.push o) :=
        (tryAdd_eq_some_iff ..).mpr ⟨⟨hroom, continues_of_gapless hgap⟩, rfl⟩
      have hobjects : (f.push o).objects ++ rest = f.objects ++ o :: rest := List.append_assoc ..
      rw [offer_cons, after, hnext, Option.getD_some, ih, hobjects]
      · rfl
      · rw [push, List.length_append]
        exact hlt
      · rw [hobjects]
        exact hgap

/-- How a header **fills** while objects are offered to it one after the other: what is true at
every point. -/
structure Filling (header : Frame) (os : List InformationObject) : Prop where
  /-- Each object is answered. -/
  answered : (header.offer os).2.length = os.length
  /-- However many objects were offered, the frame is within its limits. -/
  within : ∀ before, before <+: os → (header.offer before).1.WithinLimits
  /-- Only the objects of the frame change. -/
  fills : ∀ before, before <+: os → header.Fills (header.offer before).1
  /-- The frame holds exactly the objects that were taken, in the order of the offers. -/
  objects : ∀ before, before <+: os →
    (header.offer before).1.objects = taken before (header.offer os).2
  /-- Each object is refused exactly when it would break a limit, and then changes nothing. -/
  answers : ∀ before o later, os = before ++ o :: later →
    ∃ answer, (header.offer os).2[before.length]? = some answer ∧
      (header.offer before).1.Answers o answer (header.offer (before ++ [o])).1

/-- **A frame is filled as its limits allow.** Whatever objects are offered to a header, with
addresses of three octets, the frame never exceeds its limits, refuses an object only if it has to,
and holds the others in their order. -/
theorem header_filled (header : Frame) (hempty : header.objects = [])
    (os : List InformationObject) (haddr : ∀ o ∈ os, o.address ≤ maxObjectAddress) :
    header.Filling os := by
  have hwithin {before : List InformationObject} (hpart : before <+: os) :
      (header.offer before).1.WithinLimits := by
    refine (WithinLimits.of_empty hempty).offer fun x hx => haddr x ?_
    rw [hempty, List.nil_append] at hx
    exact hpart.subset hx
  have hobjects (before : List InformationObject) :
      (header.offer before).1.objects = taken before (header.offer before).2 := by
    rw [objects_offer, hempty, List.nil_append]
  refine ⟨length_offer .., fun _ => hwithin, fun before _ => fills_offer .., ?_, ?_⟩
  · rintro before ⟨later, rfl⟩
    rw [hobjects, offer_append, taken_append (length_offer ..).symm]
  · rintro before o later rfl
    have hpart : before <+: before ++ o :: later := List.prefix_append ..
    refine ⟨((header.offer before).1.tryAdd o).isSome, ?_, ?_⟩
    · rw [offer_append, offer_cons, List.getElem?_append_right (by rw [length_offer]),
        length_offer, Nat.sub_self]
      rfl
    -- what the frame holds was offered before, and so has addresses of three octets
    · rw [offer_append, offer_cons]
      refine (hwithin hpart).answers fun x hx => haddr x (hpart.subset ?_)
      rw [hobjects] at hx
      exact taken_subset _ hx

/-- The header of a sequence, with room for twenty objects of its type. -/
def sampleHeader : Frame :=
  { type := .M_ME_TF_1, cause := .spontaneous, station := 1, sequence := true }

/-- Objects for the sample header: the second one leaves a gap, the others leave none. -/
def sampleObjects : List InformationObject :=
  [10, 12].map ({ address := · }) ++ (List.range 21).map fun n => { address := 11 + n.toUInt32 }

/-- The second object is refused for its address. Nineteen more then bring the frame to 249 octets,
and the last two are refused for want of space. -/
theorem sample_header_filled :
    sampleHeader.objects = [] ∧ (∀ o ∈ sampleObjects, o.address ≤ maxObjectAddress) ∧
      sampleHeader.Filling sampleObjects ∧
      (sampleHeader.offer sampleObjects).2 =
        [true, false] ++ List.replicate 19 true ++ [false, false] ∧
      (sampleHeader.offer sampleObjects).1.size = maxFrameSize := by
  have haddr : ∀ o ∈ sampleObjects, o.address ≤ maxObjectAddress := by decide +kernel
  exact ⟨rfl, haddr, header_filled sampleHeader rfl sampleObjects haddr, by decide +kernel,
    by decide +kernel⟩

end Frame

end Telecontrol
