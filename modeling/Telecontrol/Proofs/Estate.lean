import Mathlib.Data.List.Perm.Subperm
import Telecontrol.Proofs.Holdings

/-! # The estate

The **estate** is a plant with the ledger of its registry. By the ledger no handle is issued twice
while no slot is vacated 2^32 times, so a handle that a station has listed stays that station's, and
every live point has one entry of one station.

Main statements: `Estate.Orderly.shed`, `Estate.Orderly.addStation` and `Estate.Orderly.addPoint`
(requests leave an estate in order), `Estate.orderly_run`, and `Estate.stations_own_points`. -/

namespace Telecontrol

open Plant (Request Listing)
open Registry (Deal Ledger vacated)

/-- The calls to the registry that a request makes. -/
def Plant.calls (p : Plant) : Request → List (Registry.Call PointId)
  | .addPoint id now spec =>
    match p.addPoint id now spec with
    | .ok _ => [.insert p.points.points.size]
    | .error _ => []
  | r => (p.given r).map .remove

/-- A plant with the ledger of its registry. -/
structure Estate where
  plant : Plant
  /-- What has happened in the registry, the latest first. -/
  deals : List (Deal PointId)

namespace Estate

variable {e : Estate} {p q : Plant} {r : Request} {rs : List Request} {id : StationId}
  {a : ObjectAddress} {ca : CommonAddress} {h : Handle} {i : PointId}

/-- An estate without stations. -/
def opened : Estate := ⟨.empty, []⟩

/-- The registry with its ledger. -/
def ledger (e : Estate) : Ledger PointId := ⟨e.plant.points.registry, e.deals⟩

/-- A request is met, and what it leads to is written down. -/
def request (e : Estate) (r : Request) : Estate :=
  ⟨e.plant.request r, (e.ledger.after (e.plant.calls r)).deals⟩

/-- Requests one after the other. -/
def run (e : Estate) (rs : List Request) : Estate := rs.foldl request e

/-- Whether every one of the requests can be made when it is made. -/
def Possible : Estate → List Request → Prop
  | _, [] => True
  | e, r :: rs => r.Possible e.plant ∧ (e.request r).Possible rs

instance Possible.decidable : (e : Estate) → (rs : List Request) → Decidable (e.Possible rs)
  | _, [] => .isTrue trivial
  | e, r :: rs =>
    have := Possible.decidable (e.request r) rs
    inferInstanceAs (Decidable (_ ∧ _))

/-- Without requests an estate stays as it is. -/
@[simp] theorem run_nil (e : Estate) : e.run [] = e := rfl

/-- The first request is made, and then the others. -/
@[simp] theorem run_cons (e : Estate) (r : Request) (rs : List Request) :
    e.run (r :: rs) = (e.request r).run rs := rfl

/-! ## The registry and its ledger -/

/-- A request that adds nothing makes the registry give up handles. -/
theorem calls_of_not_isAddition (hadds : ¬ r.IsAddition) :
    p.calls r = (p.given r).map .remove := by
  cases r with
  | addPoint => exact absurd trivial hadds
  | _ => rfl

/-- A station that is refused changes nothing. -/
theorem request_addStation_error {err : ServerError} (ha : e.plant.addStation ca = .error err) :
    e.request (.addStation ca) = e := by
  rw [request, Plant.request, ha]
  rfl

/-- A point that is refused changes nothing. -/
theorem request_addPoint_error {now : Int} {spec : PointSpec} {err : ServerError}
    (ha : e.plant.addPoint id now spec = .error err) :
    e.request (.addPoint id now spec) = e := by
  rw [request, Plant.request, Plant.calls, ha]
  rfl

/-- What a request may do: add nothing, be refused, add a station, or add a point. -/
theorem request_cases (hr : r.Possible e.plant) : ¬ r.IsAddition ∨ e.request r = e ∨
    (∃ ca q new, e.plant.addStation ca = .ok (q, new) ∧ e.request r = ⟨q, e.deals⟩) ∨
      ∃ id now spec q h, e.plant.isHeld id = true ∧ e.plant.addPoint id now spec = .ok (q, h) ∧
        e.request r = ⟨q, .issued h e.plant.points.points.size :: e.deals⟩ := by
  cases r with
  | addStation ca =>
    cases ha : e.plant.addStation ca with
    | error _ => exact .inr (.inl (request_addStation_error ha))
    | ok new =>
      refine .inr (.inr (.inl ⟨ca, new.1, new.2, ha, ?_⟩))
      rw [request, Plant.request, ha]
      rfl
  | addPoint id now spec =>
    cases ha : e.plant.addPoint id now spec with
    | error _ => exact .inr (.inl (request_addPoint_error ha))
    | ok new =>
      refine .inr (.inr (.inr ⟨id, now, spec, new.1, new.2, hr, ha, ?_⟩))
      have hhandle : new.2 = (e.ledger.registry.insert e.plant.points.points.size).2 :=
        congrArg Prod.snd ((Plant.addPoint_eq_ok_iff _ new.1 _ _ _ new.2).mp ha).2.2
      rw [request, Plant.request, Plant.calls, ha, hhandle]
      rfl
  | _ => exact .inl fun hadds => hadds

/-- The registry of a point that is added. -/
theorem registry_addPoint {now : Int} {spec : PointSpec}
    (ha : p.addPoint id now spec = .ok (q, h)) :
    q.points.registry = (p.points.registry.insert p.points.points.size).1 ∧
      h = (p.points.registry.insert p.points.points.size).2 := by
  have hnew : (q, h) = p.enlist id now spec := ((Plant.addPoint_eq_ok_iff ..).mp ha).2.2
  obtain ⟨rfl, rfl⟩ := Prod.mk.inj hnew
  exact ⟨rfl, rfl⟩

/-- The registry of an estate is changed by calls that are written down. -/
theorem ledger_request (hr : r.Possible e.plant) :
    ∃ calls, (e.request r).ledger = e.ledger.after calls := by
  rcases request_cases hr with hadds | hsame | ⟨ca, q, new, ha, hnew⟩ |
    ⟨id, now, spec, q, h, -, ha, hnew⟩
  · have hregistry : (e.request r).plant.points.registry =
        (e.ledger.after ((e.plant.given r).map .remove)).registry := by
      rw [Ledger.registry_after_remove]
      exact (e.plant.sheds_request hr hadds).given
    have hdeals : (e.request r).deals =
        (e.ledger.after ((e.plant.given r).map .remove)).deals := by
      rw [← calls_of_not_isAddition hadds]
      rfl
    exact ⟨(e.plant.given r).map .remove, by rw [ledger, hregistry, hdeals]⟩
  · exact ⟨[], by rw [hsame]; rfl⟩
  · obtain ⟨-, -, -, rfl⟩ := (Plant.addStation_eq_ok_iff ..).mp ha
    exact ⟨[], by rw [hnew]; rfl⟩
  · obtain ⟨hregistry, hhandle⟩ := registry_addPoint ha
    refine ⟨[.insert e.plant.points.points.size], ?_⟩
    rw [hnew, ledger, hregistry, hhandle]
    rfl

/-- A registry never has fewer slots than before a request. -/
theorem slots_le_request (hr : r.Possible e.plant) :
    e.plant.points.registry.slots.size ≤ (e.request r).plant.points.registry.slots.size := by
  obtain ⟨calls, hcalls⟩ := ledger_request hr
  show e.ledger.registry.slots.size ≤ (e.request r).ledger.registry.slots.size
  rw [hcalls]
  exact Ledger.slots_le_after _ _

/-- Slots are never given back. -/
theorem slots_le_run (hrs : e.Possible rs) :
    e.plant.points.registry.slots.size ≤ (e.run rs).plant.points.registry.slots.size := by
  induction rs generalizing e with
  | nil => exact Nat.le_refl _
  | cons r rs ih => exact Nat.le_trans (slots_le_request hrs.1) (ih hrs.2)

/-- What was written down stays. -/
theorem deals_suffix_request (e : Estate) (r : Request) : e.deals <:+ (e.request r).deals :=
  Ledger.deals_suffix_after e.ledger _

/-- The deals that were made stay made. -/
theorem deals_suffix_run (e : Estate) (rs : List Request) : e.deals <:+ (e.run rs).deals := by
  induction rs generalizing e with
  | nil => exact List.suffix_refl _
  | cons r rs ih => exact (e.deals_suffix_request r).trans (ih (e.request r))

/-! ## Estates in order -/

/-- An estate is in **order** when every live point has one handle, and every handle one station
that lists it and one address where it is listed. -/
structure Orderly (e : Estate) : Prop where
  kept : e.ledger.Kept
  known : ∀ {h i}, e.plant.points.resolve? h = some i → i < e.plant.points.points.size
  single : ∀ {h h' i}, e.plant.points.resolve? h = some i → e.plant.points.resolve? h' = some i →
    h = h'
  rostered : ∀ {ca id}, e.plant.find? ca = some id →
    id < e.plant.stations.size ∧ (e.plant.station id).address = ca
  made : ∀ {id}, e.plant.isHeld id = true → id < e.plant.stations.size
  issued : ∀ {id a h}, e.plant.handle? id a = some h → ∃ i, .issued h i ∈ e.deals
  own : ∀ {id a h i}, e.plant.handle? id a = some h → e.plant.points.resolve? h = some i →
    ∃ pt, e.plant.points.point? i = some pt ∧ pt.station = (e.plant.station id).address ∧
      pt.address = a
  listed : ∀ {h i}, e.plant.points.resolve? h = some i → ∃ id a, e.plant.handle? id a = some h
  once : ∀ {id a id' a' h}, e.plant.handle? id a = some h → e.plant.handle? id' a' = some h →
    id = id' ∧ a = a'
  held : ∀ {id a h}, e.plant.handle? id a = some h → e.plant.isHeld id = true

/-- An estate that was just opened is in order. -/
theorem orderly_opened : opened.Orderly where
  kept := Ledger.kept_opened
  known {h i} hi := nomatch (Registry.get?_empty h).symm.trans hi
  single {h h' i} hi := nomatch (Registry.get?_empty h).symm.trans hi
  rostered hf := nomatch hf
  made hheld := by
    rcases Plant.isHeld_iff.mp hheld with ⟨ca, hf⟩ | hk
    · nomatch hf
    · exact absurd hk List.not_mem_nil
  issued hh := nomatch Plant.lt_of_handle? hh
  own hh := nomatch Plant.lt_of_handle? hh
  listed {h i} hi := nomatch (Registry.get?_empty h).symm.trans hi
  once hh := nomatch Plant.lt_of_handle? hh
  held hh := nomatch Plant.lt_of_handle? hh

/-- A request that adds nothing leaves an estate in order. -/
theorem Orderly.shed (ho : e.Orderly) (hr : r.Possible e.plant) (hadds : ¬ r.IsAddition)
    (hkept : (e.request r).ledger.Kept) : (e.request r).Orderly := by
  have hsheds : e.plant.Sheds (e.request r).plant (e.plant.given r) fun id a =>
      e.plant.Strikes id a r := e.plant.sheds_request hr hadds
  have hlisted {id : StationId} {a : ObjectAddress} {h : Handle}
      (hh : (e.request r).plant.handle? id a = some h) : e.plant.handle? id a = some h :=
    hsheds.listed hh
  have hresolve {h : Handle} {i : PointId} (hi : (e.request r).plant.points.resolve? h = some i) :
      e.plant.points.resolve? h = some i := hsheds.resolve? hi
  have hpoint (i : PointId) :
      (e.request r).plant.points.point? i = e.plant.points.point? i := by
    rw [PointStore.point?, PointStore.point?, hsheds.points]
  refine ⟨hkept, fun hi => ?_, fun hi hi' => ho.single (hresolve hi) (hresolve hi'),
    fun hf => ?_, fun {id} hheld => ?_, fun hh => ?_, fun hh hi => ?_, fun {h i} hi => ?_,
    fun hh hh' => ho.once (hlisted hh) (hlisted hh'), fun {id a h} hh => ?_⟩
  · rw [hsheds.points]
    exact ho.known (hresolve hi)
  · rw [hsheds.size, hsheds.address]
    exact ho.rostered (hsheds.roster hf)
  · rw [hsheds.size]
    rcases Plant.isHeld_iff.mp hheld with ⟨ca, hf⟩ | hk
    · exact (ho.rostered (hsheds.roster hf)).1
    · exact ho.made (hsheds.kept hk)
  · obtain ⟨i, hi⟩ := ho.issued (hlisted hh)
    exact ⟨i, (e.deals_suffix_request r).subset hi⟩
  · rw [hpoint, hsheds.address]
    exact ho.own (hlisted hh) (hresolve hi)
  · -- a live point was not given up, so its entry was not struck
    obtain ⟨hi, hnot⟩ := hsheds.resolve?_iff.mp hi
    obtain ⟨id, a, hh⟩ := ho.listed hi
    exact ⟨id, a, hsheds.handle?_iff.mpr ⟨hh, fun hstruck => hnot (hsheds.covered hstruck hh)⟩⟩
  · rcases hsheds.held (ho.held (hlisted hh)) with hheld | hnone
    · exact hheld
    · rw [hnone a] at hh
      cases hh

/-- A station that is added leaves an estate in order. -/
theorem Orderly.addStation {new : StationId} (ho : e.Orderly)
    (ha : e.plant.addStation ca = .ok (q, new)) (hkept : (Estate.mk q e.deals).ledger.Kept) :
    (Estate.mk q e.deals).Orderly := by
  have hhandle := Plant.handle?_addStation ha
  have hstation {id : StationId} (hid : id < e.plant.stations.size) :
      q.station id = e.plant.station id := by
    obtain ⟨-, -, rfl, rfl⟩ := (Plant.addStation_eq_ok_iff ..).mp ha
    exact Plant.station_push hid
  obtain ⟨-, hfree, rfl, rfl⟩ := (Plant.addStation_eq_ok_iff ..).mp ha
  have hfind {ca' : CommonAddress} {id : StationId}
      (hf : (e.plant.roster.insert ca e.plant.stations.size).find? ca' = some id) :
      ca' = ca ∧ id = e.plant.stations.size ∨ e.plant.find? ca' = some id := by
    rw [Table.find?_insert] at hf
    split at hf
    · rename_i heq
      exact .inl ⟨Ranked.rank_injective heq, (Option.some.inj hf).symm⟩
    · exact .inr hf
  refine ⟨hkept, ho.known, ho.single, fun {ca' id} hf => ?_, fun {id} hheld => ?_, fun hh => ?_,
    fun hh hi => ?_, fun hi => ?_, fun hh hh' => ?_, fun {id a h} hh => ?_⟩
  · rcases hfind hf with ⟨rfl, rfl⟩ | hf
    · refine ⟨by rw [Array.size_push]; exact Nat.lt_succ_self _, ?_⟩
      rw [Plant.station, Array.getElem?_push, if_pos rfl]
      rfl
    · obtain ⟨hlt, haddr⟩ := ho.rostered hf
      exact ⟨by rw [Array.size_push]; exact Nat.lt_succ_of_lt hlt, by rw [hstation hlt, haddr]⟩
  · rw [Array.size_push]
    rcases Plant.isHeld_iff.mp hheld with ⟨ca', hf⟩ | hk
    · rcases hfind hf with ⟨-, rfl⟩ | hf
      · exact Nat.lt_succ_self _
      · exact Nat.lt_succ_of_lt (ho.rostered hf).1
    · exact Nat.lt_succ_of_lt (ho.made (Plant.isHeld_of_mem_kept hk))
  · rw [hhandle] at hh
    exact ho.issued hh
  · rw [hhandle] at hh
    rw [hstation (Plant.lt_of_handle? hh)]
    exact ho.own hh hi
  · obtain ⟨id, a, hh⟩ := ho.listed hi
    exact ⟨id, a, by rw [hhandle, hh]⟩
  · rw [hhandle] at hh hh'
    exact ho.once hh hh'
  · rw [hhandle] at hh
    rcases Plant.isHeld_iff.mp (ho.held hh) with ⟨ca', hf⟩ | hk
    · -- the address that is listed now was not listed before
      have hne : ca' ≠ ca := by
        rintro rfl
        rw [Table.contains, ← Plant.find?, hf] at hfree
        cases hfree
      exact Plant.isHeld_iff.mpr (.inl ⟨ca', (Table.find?_insert_of_ne _ _ hne).trans hf⟩)
    · exact Plant.isHeld_of_mem_kept hk

/-- A point that is made is listed by its station. -/
theorem handle?_enlist_self {now : Int} {spec : PointSpec} (hid : id < p.stations.size) :
    (p.enlist id now spec).1.handle? id spec.address =
      some (p.points.insert (.ofSpec (p.station id).address now spec)).2 := by
  show ((p.modifyStation id _).station id).handle? spec.address = _
  rw [Plant.station_modifyStation, if_pos ⟨rfl, hid⟩]
  exact Table.find?_insert_self ..

/-- What resolves after a point was added: its handle, and what resolved before. -/
theorem resolve?_addPoint {now : Int} {spec : PointSpec} {h' : Handle}
    (hsound : p.points.registry.Sound) (ha : p.addPoint id now spec = .ok (q, h'))
    (hfit : q.points.registry.Fits) (h : Handle) :
    q.points.resolve? h = if h = h' then some p.points.points.size else p.points.resolve? h := by
  obtain ⟨hregistry, rfl⟩ := registry_addPoint ha
  obtain ⟨n, g, hfills⟩ := hsound.fills p.points.points.size
  rw [PointStore.resolve?, hregistry]
  exact hfills.get?_insert (by rw [← hregistry]; exact hfit) h

/-- A point that is added leaves an estate in order, as long as no station lists its handle. -/
theorem Orderly.addPoint {now : Int} {spec : PointSpec} {new : StationId} {h' : Handle}
    {deals : List (Deal PointId)} (ho : e.Orderly) (hheld : e.plant.isHeld new = true)
    (ha : e.plant.addPoint new now spec = .ok (q, h')) (hfit : q.points.registry.Fits)
    (hfresh : ∀ {id a}, e.plant.handle? id a ≠ some h')
    (hdeals : deals = .issued h' e.plant.points.points.size :: e.deals)
    (hkept : (Estate.mk q deals).ledger.Kept) : (Estate.mk q deals).Orderly := by
  have hlisted {id : StationId} {a : ObjectAddress} {h : Handle}
      (hh : e.plant.handle? id a = some h) : q.handle? id a = some h := Plant.handle?_addPoint ha hh
  have hresolve := resolve?_addPoint ho.kept.sound ha hfit
  have hhandle : h' = (e.plant.points.insert (.ofSpec (e.plant.station new).address now spec)).2 :=
    (registry_addPoint ha).2
  obtain rfl := Plant.eq_enlist ha
  have hcases {id : StationId} {a : ObjectAddress} {h : Handle}
      (hh : (e.plant.enlist new now spec).1.handle? id a = some h) :
      e.plant.handle? id a = some h ∧ h ≠ h' ∨ id = new ∧ a = spec.address ∧ h = h' := by
    rcases Plant.handle?_enlist hh with hh | ⟨hid, haddr, heq⟩
    · exact .inl ⟨hh, fun heq => hfresh (heq ▸ hh)⟩
    · exact .inr ⟨hid, haddr, heq.trans hhandle.symm⟩
  have hpoint (i : PointId) : (e.plant.enlist new now spec).1.points.point? i =
      if i = e.plant.points.points.size then
        some (.ofSpec (e.plant.station new).address now spec)
      else e.plant.points.point? i := Array.getElem?_push
  have haddress (id : StationId) : ((e.plant.enlist new now spec).1.station id).address =
      (e.plant.station id).address := by
    show ((e.plant.modifyStation new _).station id).address = _
    rw [Plant.station_modifyStation]
    split <;> rfl
  have hsize : (e.plant.enlist new now spec).1.stations.size = e.plant.stations.size :=
    Array.size_modify
  have hcount : (e.plant.enlist new now spec).1.points.points.size =
      e.plant.points.points.size + 1 := Array.size_push _
  -- the number of the new point is the number of no other
  have hnumber {h : Handle} {i : PointId} (hi : e.plant.points.resolve? h = some i) :
      i ≠ e.plant.points.points.size := Nat.ne_of_lt (ho.known hi)
  subst hdeals
  refine ⟨hkept, fun {h i} hi => ?_, fun {h₁ h₂ i} hi₁ hi₂ => ?_, fun {ca id} hf => ?_,
    fun {id} hid => ?_, fun {id a h} hh => ?_, fun {id a h i} hh hi => ?_, fun {h i} hi => ?_,
    fun {id a id' a' h} hh hh' => ?_, fun {id a h} hh => ?_⟩
  · rw [hresolve] at hi
    rw [hcount]
    split at hi
    · rw [← Option.some.inj hi]
      exact Nat.lt_succ_self _
    · exact Nat.lt_succ_of_lt (ho.known hi)
  · rw [hresolve] at hi₁ hi₂
    split at hi₁ <;> split at hi₂
    · rename_i heq₁ heq₂
      rw [heq₁, heq₂]
    · exact absurd (Option.some.inj hi₁).symm (hnumber hi₂)
    · exact absurd (Option.some.inj hi₂).symm (hnumber hi₁)
    · exact ho.single hi₁ hi₂
  · rw [hsize, haddress]
    exact ho.rostered hf
  · rw [hsize]
    exact ho.made hid
  · rcases hcases hh with ⟨hh, -⟩ | ⟨-, -, rfl⟩
    · obtain ⟨i, hi⟩ := ho.issued hh
      exact ⟨i, List.mem_cons_of_mem _ hi⟩
    · exact ⟨_, List.mem_cons_self⟩
  · rw [hpoint, haddress]
    rw [hresolve] at hi
    rcases hcases hh with ⟨hh, hne⟩ | ⟨rfl, rfl, rfl⟩
    · rw [if_neg hne] at hi
      rw [if_neg (hnumber hi)]
      exact ho.own hh hi
    · rw [if_pos rfl] at hi
      rw [if_pos (Option.some.inj hi).symm]
      exact ⟨_, rfl, rfl, rfl⟩
  · rw [hresolve] at hi
    split at hi
    · rename_i heq
      exact ⟨new, spec.address, by rw [handle?_enlist_self (ho.made hheld), heq, hhandle]⟩
    · obtain ⟨id, a, hh⟩ := ho.listed hi
      exact ⟨id, a, hlisted hh⟩
  · rcases hcases hh with ⟨hh, hne⟩ | ⟨rfl, rfl, heq⟩ <;>
      rcases hcases hh' with ⟨hh', hne'⟩ | ⟨rfl, rfl, heq'⟩
    · exact ho.once hh hh'
    · exact absurd heq' hne
    · exact absurd heq hne'
    · exact ⟨rfl, rfl⟩
  · rcases hcases hh with ⟨hh, -⟩ | ⟨rfl, -, -⟩
    · exact ho.held hh
    · exact hheld

/-- A request leaves an estate in order, as long as no station lists the handle of a new point. -/
theorem Orderly.request_of_fresh (ho : e.Orderly) (hr : r.Possible e.plant)
    (hfit : (e.request r).plant.points.registry.Fits)
    (hfresh : ∀ {new now spec q h}, e.plant.addPoint new now spec = .ok (q, h) →
      e.request r = ⟨q, .issued h e.plant.points.points.size :: e.deals⟩ →
      ∀ {id a}, e.plant.handle? id a ≠ some h) : (e.request r).Orderly := by
  have hkept : (e.request r).ledger.Kept := by
    obtain ⟨calls, hcalls⟩ := ledger_request hr
    rw [hcalls]
    exact ho.kept.after calls (by rw [← hcalls]; exact hfit)
  rcases request_cases hr with hadds | hsame | ⟨ca, q, new, ha, hnew⟩ |
    ⟨id, now, spec, q, h, hheld, ha, hnew⟩
  · exact ho.shed hr hadds hkept
  · rwa [hsame]
  · rw [hnew] at hkept ⊢
    exact ho.addStation ha hkept
  · have hfresh := @hfresh _ _ _ _ _ ha hnew
    rw [hnew] at hfit hkept ⊢
    exact ho.addPoint hheld ha hfit hfresh rfl hkept

/-- Every request leaves an estate in order. -/
theorem Orderly.request (ho : e.Orderly) (hr : r.Possible e.plant)
    (hfit : (e.request r).plant.points.registry.Fits)
    (hfew : ∀ i, vacated i (e.request r).deals < 2 ^ 32) : (e.request r).Orderly := by
  refine ho.request_of_fresh hr hfit fun {new now spec q h} ha hnew {id a} hh => ?_
  obtain ⟨hregistry, hhandle⟩ := registry_addPoint ha
  rw [hnew] at hfit hfew
  have hlt : vacated h.index e.deals < 2 ^ 32 :=
    Nat.lt_of_le_of_lt (Registry.vacated_le_of_suffix (List.suffix_cons _ _)) (hfew h.index)
  -- what a station lists was issued before
  obtain ⟨i, hi⟩ := ho.issued hh
  rw [hhandle] at hlt hi
  exact ho.kept.not_issued (hregistry ▸ hfit) hlt i hi

/-- Requests leave an estate in order. -/
theorem Orderly.run (ho : e.Orderly) (hrs : e.Possible rs)
    (hfit : (e.run rs).plant.points.registry.Fits)
    (hfew : ∀ i, vacated i (e.run rs).deals < 2 ^ 32) : (e.run rs).Orderly := by
  induction rs generalizing e with
  | nil => exact ho
  | cons r rs ih =>
    refine ih (ho.request hrs.1 ?_ fun i => ?_) hrs.2 hfit hfew
    · exact Nat.le_trans (slots_le_run hrs.2) hfit
    · exact Nat.lt_of_le_of_lt
        (Registry.vacated_le_of_suffix ((e.request r).deals_suffix_run rs)) (hfew i)

/-! ## What is lost -/

/-- An estate has **lost** nothing when every handle that a station lists resolves. -/
def Lossless (e : Estate) : Prop :=
  ∀ ⦃id a h⦄, e.plant.handle? id a = some h → ∃ i, e.plant.points.resolve? h = some i

/-- Nothing is lost unless a point is given up behind its station's back. -/
theorem Orderly.lossless_request (ho : e.Orderly) (hl : e.Lossless) (hr : r.Possible e.plant)
    (hfit : (e.request r).plant.points.registry.Fits) (hvacate : ∀ h, r ≠ .vacate h) :
    (e.request r).Lossless := by
  intro id a h hh
  rcases request_cases hr with hadds | hsame | ⟨ca, q, new, ha, hnew⟩ |
    ⟨new, now, spec, q, h', -, ha, hnew⟩
  · have hsheds := e.plant.sheds_request hr hadds
    obtain ⟨hh, hkept⟩ := hsheds.handle?_iff.mp hh
    obtain ⟨i, hi⟩ := hl hh
    refine ⟨i, hsheds.resolve?_iff.mpr ⟨hi, fun hgiven => hkept ?_⟩⟩
    -- a handle that was given up was listed where an entry was struck, and it was listed only once
    obtain ⟨id', a', hstruck, hh'⟩ := (e.plant.mem_given_iff hvacate).mp hgiven
    obtain ⟨rfl, rfl⟩ := ho.once hh hh'
    exact hstruck
  · rw [hsame] at hh ⊢
    exact hl hh
  · rw [hnew] at hh ⊢
    rw [Plant.handle?_addStation ha] at hh
    obtain ⟨-, -, -, rfl⟩ := (Plant.addStation_eq_ok_iff ..).mp ha
    exact hl hh
  · rw [hnew] at hh hfit ⊢
    rw [resolve?_addPoint ho.kept.sound ha hfit]
    split
    · exact ⟨_, rfl⟩
    · rename_i hne
      obtain ⟨-, rfl⟩ := registry_addPoint ha
      obtain rfl := Plant.eq_enlist ha
      rcases Plant.handle?_enlist hh with hh | ⟨-, -, heq⟩
      · exact hl hh
      · exact absurd heq hne

/-- As long as nothing was lost, no station lists the handle of a new point: what is listed
resolves. -/
theorem Orderly.request_of_lossless (ho : e.Orderly) (hl : e.Lossless) (hr : r.Possible e.plant)
    (hfit : (e.request r).plant.points.registry.Fits) : (e.request r).Orderly := by
  refine ho.request_of_fresh hr hfit fun {new now spec q h} ha hnew {id a} hh => ?_
  obtain ⟨hregistry, hhandle⟩ := registry_addPoint ha
  obtain ⟨n, g, hfills⟩ := ho.kept.sound.fills e.plant.points.points.size
  rw [hnew] at hfit
  have hnone : e.plant.points.resolve? h = none := by
    rw [hhandle]
    exact hfills.get?_new (hregistry ▸ hfit)
  obtain ⟨i, hi⟩ := hl hh
  rw [hnone] at hi
  cases hi

/-- Requests that give up no point behind its station's back leave an estate in order, and nothing
is lost by them. -/
theorem Orderly.run_of_lossless (ho : e.Orderly) (hl : e.Lossless) (hrs : e.Possible rs)
    (hfit : (e.run rs).plant.points.registry.Fits) (hvacate : ∀ h, .vacate h ∉ rs) :
    (e.run rs).Orderly ∧ (e.run rs).Lossless := by
  induction rs generalizing e with
  | nil => exact ⟨ho, hl⟩
  | cons r rs ih =>
    have hfit' : (e.request r).plant.points.registry.Fits :=
      Nat.le_trans (slots_le_run hrs.2) hfit
    have hnot (h : Handle) : r ≠ .vacate h := fun heq => hvacate h (heq ▸ List.mem_cons_self)
    exact ih (ho.request_of_lossless hl hrs.1 hfit') (ho.lossless_request hl hrs.1 hfit' hnot)
      hrs.2 hfit fun h hmem => hvacate h (List.mem_cons_of_mem _ hmem)

/-- In an estate that was just opened nothing is lost. -/
theorem lossless_opened : opened.Lossless := fun _ _ _ hh => nomatch Plant.lt_of_handle? hh

/-! ## Stations and their points -/

/-- Handles that resolve, each counted once, are listed by stations. -/
theorem Orderly.size_le (ho : e.Orderly) : e.plant.points.size ≤ e.plant.entries.length := by
  obtain ⟨hs, hnodup, hmem, hsize⟩ := ho.kept.counted
  have hsub : hs ⊆ e.plant.entries.map (·.2.2) := by
    intro h hin
    obtain ⟨i, hi⟩ := (Registry.contains_iff _ _).mp ((hmem h).mp hin)
    obtain ⟨id, a, hh⟩ := ho.listed hi
    exact List.mem_map.mpr ⟨(id, a, h), Plant.mem_entries.mpr hh, rfl⟩
  calc e.plant.points.size = hs.length := hsize
    _ ≤ (e.plant.entries.map (·.2.2)).length := (hnodup.subperm hsub).length_le
    _ = e.plant.entries.length := List.length_map _

/-- If nothing was lost, stations list as many handles as there are live points. -/
theorem Orderly.size_eq (ho : e.Orderly) (hl : e.Lossless) :
    e.plant.points.size = e.plant.entries.length := by
  obtain ⟨hs, -, hmem, hsize⟩ := ho.kept.counted
  have hnodup : (e.plant.entries.map (·.2.2)).Nodup := by
    refine e.plant.nodup_entries.map_on fun ⟨id, a, h⟩ hx ⟨id', a', h'⟩ hx' heq => ?_
    obtain rfl : h = h' := heq
    obtain ⟨rfl, rfl⟩ := ho.once (Plant.mem_entries.mp hx) (Plant.mem_entries.mp hx')
    rfl
  have hsub : e.plant.entries.map (·.2.2) ⊆ hs := by
    intro h hin
    obtain ⟨⟨id, a, h'⟩, hx, rfl⟩ := List.mem_map.mp hin
    obtain ⟨i, hi⟩ := hl (Plant.mem_entries.mp hx)
    exact (hmem h').mpr ((Registry.contains_iff _ _).mpr ⟨i, hi⟩)
  have hge : e.plant.entries.length ≤ e.plant.points.size :=
    calc e.plant.entries.length = (e.plant.entries.map (·.2.2)).length := (List.length_map _).symm
      _ ≤ hs.length := (hnodup.subperm hsub).length_le
      _ = e.plant.points.size := hsize.symm
  exact Nat.le_antisymm ho.size_le hge

/-- Stations **own** their points. -/
structure Owned (e : Estate) : Prop where
  /-- Only stations on the roster, or kept by someone, list anything. -/
  held : ∀ {id a h}, (id, a, h) ∈ e.plant.entries → e.plant.isHeld id = true
  /-- What an entry resolves to is a point of that station at that address. -/
  own : ∀ {id a h i}, (id, a, h) ∈ e.plant.entries → e.plant.points.resolve? h = some i →
    ∃ pt, e.plant.points.point? i = some pt ∧ pt.station = (e.plant.station id).address ∧
      pt.address = a
  /-- A live point is listed by one entry of one station. -/
  listed : ∀ {h i}, e.plant.points.resolve? h = some i →
    ∃! x : Listing, x ∈ e.plant.entries ∧ e.plant.points.resolve? x.2.2 = some i
  /-- There are no more live points than entries. -/
  size_le : e.plant.points.size ≤ e.plant.entries.length
  /-- Whoever takes away a point, a station or the last hold on a station strikes entries, and takes
  away the live points that are listed there and no others. -/
  removes : ∀ {r}, r.Possible e.plant → r.IsRemoval →
    (∀ {id a h}, (id, a, h) ∈ (e.plant.request r).entries ↔
      (id, a, h) ∈ e.plant.entries ∧ ¬ e.plant.Strikes id a r) ∧
    (∀ {h i}, (e.plant.request r).points.resolve? h = some i ↔
      e.plant.points.resolve? h = some i ∧
        ¬ ∃ id a, e.plant.Strikes id a r ∧ (id, a, h) ∈ e.plant.entries) ∧
    (e.plant.request r).points.points = e.plant.points.points
  /-- The points of an entry that is not struck stay. -/
  spares : ∀ {r id a h}, r.Possible e.plant → r.IsRemoval → (id, a, h) ∈ e.plant.entries →
    ¬ e.plant.Strikes id a r → (e.plant.request r).points.resolve? h = e.plant.points.resolve? h
  /-- A station or a point that is refused changes nothing. -/
  refuses : (∀ {ca err}, e.plant.addStation ca = .error err → e.request (.addStation ca) = e) ∧
    ∀ {id now spec err}, e.plant.addPoint id now spec = .error err →
      e.request (.addPoint id now spec) = e

/-- A removal adds nothing, and gives up nothing behind a station's back. -/
theorem isRemoval_iff : r.IsRemoval → ¬ r.IsAddition ∧ ∀ h, r ≠ .vacate h := by
  intro hr
  cases r with
  | removeStation | release | removePoint => exact ⟨fun h => h, fun h => nofun⟩
  | _ => exact hr.elim

/-- In an estate in order stations own their points. -/
theorem Orderly.owned (ho : e.Orderly) : e.Owned where
  held hx := ho.held (Plant.mem_entries.mp hx)
  own hx hi := ho.own (Plant.mem_entries.mp hx) hi
  listed {h i} hi := by
    obtain ⟨id, a, hh⟩ := ho.listed hi
    -- a point has one handle, and this one is listed in one place
    refine ⟨(id, a, h), ⟨Plant.mem_entries.mpr hh, hi⟩, ?_⟩
    rintro ⟨id', a', h'⟩ ⟨hx, hi'⟩
    obtain rfl : h' = h := ho.single hi' hi
    obtain ⟨rfl, rfl⟩ := ho.once (Plant.mem_entries.mp hx) hh
    rfl
  size_le := ho.size_le
  removes {r} hr hremoval := by
    obtain ⟨hadds, hvacate⟩ := isRemoval_iff hremoval
    have hsheds := e.plant.sheds_request hr hadds
    refine ⟨fun {id a h} => ?_, fun {h i} => ?_, hsheds.points⟩
    · rw [Plant.mem_entries, Plant.mem_entries, hsheds.handle?_iff]
    · rw [hsheds.resolve?_iff, e.plant.mem_given_iff hvacate]
      simp only [Plant.mem_entries]
  spares {r id a h} hr hremoval hx hspared := by
    obtain ⟨hadds, hvacate⟩ := isRemoval_iff hremoval
    have hsheds := e.plant.sheds_request hr hadds
    -- the handles that are given up are those of the entries that are struck
    have hnot : h ∉ e.plant.given r := by
      intro hgiven
      obtain ⟨id', a', hstruck, hh'⟩ := (e.plant.mem_given_iff hvacate).mp hgiven
      obtain ⟨rfl, rfl⟩ := ho.once (Plant.mem_entries.mp hx) hh'
      exact hspared hstruck
    refine Option.ext fun i => ?_
    rw [hsheds.resolve?_iff]
    exact and_iff_left hnot
  refuses := ⟨request_addStation_error, request_addPoint_error⟩

/-- **Stations own their points.** Whatever was requested, as long as there were never more than
2^32 slots and none was vacated 2^32 times, stations own their points; and every entry is that of a
live point, unless some point was given up behind its station's back. -/
theorem stations_own_points (rs : List Request) (hrs : opened.Possible rs)
    (hfit : (opened.run rs).plant.points.registry.Fits)
    (hfew : ∀ i, vacated i (opened.run rs).deals < 2 ^ 32) :
    (opened.run rs).Owned ∧ ((∀ h, .vacate h ∉ rs) →
      (opened.run rs).plant.points.size = (opened.run rs).plant.entries.length) := by
  have ho : (opened.run rs).Orderly := orderly_opened.run hrs hfit hfew
  refine ⟨ho.owned, fun hvacate => ho.size_eq ?_⟩
  exact (orderly_opened.run_of_lossless lossless_opened hrs hfit hvacate).2

/-- A point of monitored single-point information. -/
def samplePoint : PointSpec := { address := 10, type := .M_SP_NA_1 }

/-- A station is removed while someone keeps it and is given a point again; another station is added
at its common address; slots are used again. -/
def sampleRequests : List Request :=
  [.addStation 1, .addPoint 0 0 samplePoint, .keep 0, .removeStation 1, .addPoint 0 0 samplePoint,
    .addStation 1, .addPoint 1 0 samplePoint, .removePoint 1 10, .addPoint 1 0 samplePoint]

/-- Afterwards the point of the station that is kept is given up behind its back, and its slot is
used for a point of the other station. -/
def sampleVacated : List Request :=
  sampleRequests ++ [.vacate ⟨0, 1⟩, .addPoint 1 0 { samplePoint with address := 11 }]

/-- A point that was removed makes room for another, which gets its slot and a new generation. -/
theorem sample_stations_own_points :
    ((opened.run sampleRequests).Owned ∧
      (opened.run sampleRequests).plant.entries = [(0, 10, ⟨0, 1⟩), (1, 10, ⟨1, 1⟩)] ∧
      (opened.run sampleRequests).plant.points.size = 2) ∧
    (opened.run sampleVacated).Owned ∧
      (opened.run sampleVacated).plant.entries =
        [(0, 10, ⟨0, 1⟩), (1, 10, ⟨1, 1⟩), (1, 11, ⟨0, 2⟩)] ∧
      (opened.run sampleVacated).plant.points.size = 2 := by
  have hentries : (opened.run sampleRequests).plant.entries =
      [(0, 10, ⟨0, 1⟩), (1, 10, ⟨1, 1⟩)] := by decide
  obtain ⟨howned, hsize⟩ := stations_own_points sampleRequests (by decide) (by decide) fun i =>
    Nat.lt_of_le_of_lt List.countP_le_length (by decide)
  have hvacate (h : Handle) : .vacate h ∉ sampleRequests := by simp [sampleRequests]
  refine ⟨⟨howned, hentries, by rw [hsize hvacate, hentries]; rfl⟩, ?_, by decide, by decide⟩
  exact (stations_own_points sampleVacated (by decide) (by decide) fun i =>
    Nat.lt_of_le_of_lt List.countP_le_length (by decide)).1

end Estate

end Telecontrol
