import Mathlib.Data.List.Nodup
import Telecontrol.Proofs.Course

/-! # Selections in the journal

The journal tells which selection of a point **stands**: the last one that was granted, unless
something has put an end to it since. What stands follows the events as the table of selections
follows what is done.

Main statements: `standing?_eq_some_iff` (a selection stands when it was granted and nothing after
the grant supersedes it) and `SelectionTable.Keyed.foldr_revise` (noting the ends of stored
selections is dropping them). -/

namespace Telecontrol

/-! ## What stands -/

namespace Event

/-- The selection that stands at a point after an event, from the one that stood before it. -/
def revise (k : CommonAddress × ObjectAddress) (held : Option Selection) :
    Event → Option Selection
  | .granted g => if g.key = k then some g else held
  | .ended g _ => if g.key = k then none else held
  | .notice (.connection c .closed _) => held.filter (·.connection != c)
  | .notice .stopped => none
  | _ => held

/-- Whether an event puts an end to a selection: another grant or an end of a selection of the same
point, the closing of the connection, or the stop of the server. -/
def supersedes (g : Selection) : Event → Bool
  | .granted g' | .ended g' _ => g'.key == g.key
  | .notice (.connection c .closed _) => c == g.connection
  | .notice .stopped => true
  | _ => false

/-- Events that change no selection and conclude no execute. -/
def isQuiet : Event → Bool
  | .sent f => f.concluded?.isNone
  | e => e.isPlain

/-- A quiet event leaves what stands. -/
theorem revise_of_isQuiet {e : Event} (h : e.isQuiet = true) (k : CommonAddress × ObjectAddress)
    (held : Option Selection) : e.revise k held = held := by
  unfold revise
  split <;> first | rfl | cases h

/-- What stands after an event was granted by it or stood before. -/
theorem granted_of_revise {e : Event} {k : CommonAddress × ObjectAddress} {held : Option Selection}
    {g : Selection} (h : e.revise k held = some g) : e = .granted g ∨ held = some g := by
  unfold revise at h
  split at h
  · split at h
    · rw [Option.some.inj h]
      exact .inl rfl
    · exact .inr h
  · split at h
    · cases h
    · exact .inr h
  · exact .inr (Option.filter_eq_some_iff.mp h).1
  · cases h
  · exact .inr h

/-- What stands after several events was granted by one of them or stood before. -/
theorem granted_of_foldr_revise {events : List Event} {k : CommonAddress × ObjectAddress}
    {held : Option Selection} {g : Selection}
    (h : events.foldr (fun e held => e.revise k held) held = some g) :
    .granted g ∈ events ∨ held = some g := by
  induction events with
  | nil => exact .inr h
  | cons e rest ih =>
    rcases granted_of_revise h with rfl | h
    · exact .inl List.mem_cons_self
    · exact (ih h).imp_left (List.mem_cons_of_mem e)

/-- What stands after an event was granted by it or stood before and is not superseded. -/
theorem revise_eq_some_iff {e : Event} {k : CommonAddress × ObjectAddress}
    {held : Option Selection} (hk : ∀ g, held = some g → g.key = k) {g : Selection} :
    e.revise k held = some g ↔
      (e = .granted g ∧ g.key = k) ∨ (held = some g ∧ e.supersedes g = false) := by
  unfold revise supersedes
  split
  -- a grant takes the place of what stood at its point
  · rename_i g'
    by_cases hg : g'.key = k
    · rw [if_pos hg]
      constructor
      · intro h
        obtain rfl := Option.some.inj h
        exact .inl ⟨rfl, hg⟩
      · rintro (⟨h, -⟩ | ⟨h, hne⟩)
        · rw [Event.granted.inj h]
        · rw [hg, hk g h] at hne
          simp at hne
    · rw [if_neg hg]
      constructor
      · intro h
        exact .inr ⟨h, by rw [hk g h]; simpa using hg⟩
      · rintro (⟨h, hgk⟩ | ⟨h, -⟩)
        · rw [Event.granted.inj h] at hg
          exact absurd hgk hg
        · exact h
  -- an end leaves nothing standing at its point
  · rename_i g' why
    by_cases hg : g'.key = k
    · rw [if_pos hg]
      constructor
      · intro h
        cases h
      · rintro (⟨h, -⟩ | ⟨h, hne⟩)
        · cases h
        · rw [hg, hk g h] at hne
          simp at hne
    · rw [if_neg hg]
      constructor
      · intro h
        exact .inr ⟨h, by rw [hk g h]; simpa using hg⟩
      · rintro (⟨h, -⟩ | ⟨h, -⟩)
        · cases h
        · exact h
  -- a closed connection ends what is held through it
  · rename_i c n
    rw [Option.filter_eq_some_iff]
    constructor
    · rintro ⟨h, hne⟩
      exact .inr ⟨h, beq_false_of_ne (bne_iff_ne.mp hne).symm⟩
    · rintro (⟨h, -⟩ | ⟨h, hne⟩)
      · cases h
      · exact ⟨h, bne_iff_ne.mpr (ne_of_beq_false hne).symm⟩
  · constructor
    · intro h
      cases h
    · rintro (⟨h, -⟩ | ⟨-, h⟩) <;> cases h
  -- any other event changes nothing
  · rename_i hgranted _ _ _
    constructor
    · exact fun h => .inr ⟨h, rfl⟩
    · rintro (⟨h, -⟩ | ⟨h, -⟩)
      · exact absurd h (hgranted g)
      · exact h

end Event

/-- The selection that stands at a point, as a journal tells it. -/
def standing? (k : CommonAddress × ObjectAddress) (journal : List Entry) : Option Selection :=
  journal.foldr (fun e held => e.event.revise k held) none

/-- The latest entry revises what stood before it. -/
theorem standing?_cons (k : CommonAddress × ObjectAddress) (e : Entry) (journal : List Entry) :
    standing? k (e :: journal) = e.event.revise k (standing? k journal) := rfl

/-- The newer entries revise what stood after the older ones. -/
theorem standing?_append (k : CommonAddress × ObjectAddress) (newer older : List Entry) :
    standing? k (newer ++ older) =
      (newer.map Entry.event).foldr (fun e held => e.revise k held) (standing? k older) := by
  rw [standing?, standing?, List.foldr_append, List.foldr_map]

/-- A selection stands at the point that it is for. -/
theorem key_of_standing? {k : CommonAddress × ObjectAddress} {journal : List Entry} {g : Selection}
    (h : standing? k journal = some g) : g.key = k := by
  induction journal generalizing g with
  | nil => cases h
  | cons e rest ih =>
    rw [standing?_cons, Event.revise_eq_some_iff fun _ h => ih h] at h
    rcases h with ⟨-, hk⟩ | ⟨h, -⟩
    · exact hk
    · exact ih h

/-- A selection stands exactly when it was granted and nothing after the grant supersedes it. -/
theorem standing?_eq_some_iff (k : CommonAddress × ObjectAddress) (journal : List Entry)
    (g : Selection) :
    standing? k journal = some g ↔
      g.key = k ∧ ∃ newer t older, journal = newer ++ ⟨t, .granted g⟩ :: older ∧
        ∀ e ∈ newer, e.event.supersedes g = false := by
  induction journal with
  | nil =>
    -- nothing stands in an empty journal
    constructor
    · intro h
      cases h
    · rintro ⟨-, newer, t, older, h, -⟩
      cases newer <;> cases h
  | cons e rest ih =>
    rw [standing?_cons, Event.revise_eq_some_iff fun _ h => key_of_standing? h]
    constructor
    · -- the grant is the latest event, or it is older and this event leaves it alone
      rintro (⟨he, hk⟩ | ⟨h, hne⟩)
      · exact ⟨hk, [], e.time, rest, by rw [← he]; rfl, fun _ h => by cases h⟩
      · obtain ⟨hk, newer, t, older, rfl, hnewer⟩ := ih.mp h
        refine ⟨hk, e :: newer, t, older, rfl, fun e' he' => ?_⟩
        rcases List.mem_cons.mp he' with rfl | he'
        · exact hne
        · exact hnewer e' he'
    · rintro ⟨hk, newer, t, older, h, hnewer⟩
      cases newer with
      | nil =>
        obtain ⟨rfl, -⟩ := List.cons.inj h
        exact .inl ⟨rfl, hk⟩
      | cons e' newer =>
        obtain ⟨rfl, rfl⟩ := List.cons.inj h
        refine .inr ⟨?_, hnewer e List.mem_cons_self⟩
        exact ih.mpr ⟨hk, newer, t, older, rfl,
          fun e' he' => hnewer e' (List.mem_cons_of_mem _ he')⟩

/-! ## The table of selections -/

namespace Selection

/-- The job that releases a selection. -/
def releaseJob (g : Selection) : Job := .release g.station g.address g.created

/-- A list with one more selection has that one and what was there. -/
theorem placeByConnection_perm (s : Selection) (l : List Selection) :
    (placeByConnection s l).Perm (s :: l) := by
  induction l with
  | nil => exact .refl _
  | cons t rest ih =>
    rw [placeByConnection]
    split
    · exact .refl _
    · exact (ih.cons t).trans (.swap s t rest)

/-- Ordering selections by their connections loses none and adds none. -/
theorem byConnection_perm (l : List Selection) : (byConnection l).Perm l := by
  induction l with
  | nil => exact .refl _
  | cons s rest ih => exact (placeByConnection_perm s _).trans (ih.cons s)

end Selection

namespace SelectionTable

/-- Every selection is stored at the point that it is for. -/
def Keyed (t : SelectionTable) : Prop :=
  ∀ {station address g}, t.find? station address = some g → g.key = (station, address)

variable {t : SelectionTable}

/-- A selection is live when it is stored and has not expired. -/
theorem live?_eq_some_iff {now : Int} {station : CommonAddress} {address : ObjectAddress}
    {g : Selection} : t.live? now station address = some g ↔
      t.find? station address = some g ∧ t.isExpired now g = false := by
  rw [live?, Option.filter_eq_some_iff, isLive, Bool.not_eq_true']

/-- A client holds a point when the live selection of the point is its own. -/
theorem isHeldBy_iff {now : Int} {s : Selection} : t.isHeldBy now s = true ↔
    ∃ held, t.live? now s.station s.address = some held ∧
      held.connection = s.connection ∧ held.originator = s.originator := by
  rw [isHeldBy, Option.any_eq_true]
  exact exists_congr fun held => and_congr_right fun _ => held.sameHolder_iff s

/-- A point is taken when its live selection is another client's. -/
theorem isTaken_iff {now : Int} {s : Selection} : t.isTaken now s = true ↔
    ∃ held, t.live? now s.station s.address = some held ∧
      ¬ (held.connection = s.connection ∧ held.originator = s.originator) := by
  rw [isTaken, Option.any_eq_true]
  refine exists_congr fun held => and_congr_right fun _ => ?_
  rw [Bool.not_eq_true', ← held.sameHolder_iff s, Bool.not_eq_true]

/-- The selections listed are those stored at their points. -/
theorem Keyed.mem_values (h : t.Keyed) {g : Selection} :
    g ∈ t.entries.values ↔ t.find? g.station g.address = some g := by
  constructor
  · intro hg
    obtain ⟨⟨k, g'⟩, he, rfl⟩ := List.mem_map.mp hg
    have hf := (t.entries.mem_iff_find? k g').mp he
    have hk : g'.key = k := h hf
    rw [← hk] at hf
    exact hf
  · intro hf
    exact List.mem_map.mpr ⟨(g.key, g), (t.entries.mem_iff_find? g.key g).mpr hf, rfl⟩

/-- No selection is listed twice. -/
theorem Keyed.nodup_values (h : t.Keyed) : t.entries.values.Nodup := by
  refine List.pairwise_map.mpr (t.entries.ascending.imp_of_mem fun {a b} ha hb hlt heq => ?_)
  have hka : a.2.key = a.1 := h ((t.entries.mem_iff_find? a.1 a.2).mp ha)
  have hkb : b.2.key = b.1 := h ((t.entries.mem_iff_find? b.1 b.2).mp hb)
  rw [← hka, ← hkb, heq] at hlt
  exact absurd hlt (Nat.lt_irrefl _)

/-- Ends of some selections, in whatever order they are noted. -/
theorem foldr_revise_ended (k : CommonAddress × ObjectAddress) (held : Option Selection)
    (why : SelectionEnd) (l : List Selection) :
    (l.map fun g => Event.ended g why).foldr (fun e held => e.revise k held) held =
      if ∃ g ∈ l, g.key = k then none else held := by
  induction l with
  | nil => simp
  | cons g rest ih =>
    rw [List.map_cons, List.foldr_cons, ih, Event.revise]
    by_cases hg : g.key = k
    · rw [if_pos hg, if_pos ⟨g, List.mem_cons_self, hg⟩]
    · rw [if_neg hg]
      by_cases hr : ∃ g' ∈ rest, g'.key = k
      · obtain ⟨g', hg', hk⟩ := hr
        rw [if_pos ⟨g', hg', hk⟩, if_pos ⟨g', List.mem_cons_of_mem _ hg', hk⟩]
      · rw [if_neg hr, if_neg]
        rintro ⟨g', hg', hk⟩
        rcases List.mem_cons.mp hg' with rfl | hg'
        · exact hg hk
        · exact hr ⟨g', hg', hk⟩

/-- Noting the ends of all stored selections that fail a test leaves those that pass it. -/
theorem Keyed.foldr_revise (h : t.Keyed) (p : Selection → Bool) {l : List Selection}
    (hl : ∀ g, g ∈ l ↔ g ∈ t.entries.values ∧ p g = false) (why : SelectionEnd)
    (k : CommonAddress × ObjectAddress) :
    (l.map fun g => Event.ended g why).foldr (fun e held => e.revise k held)
      (t.find? k.1 k.2) = (t.find? k.1 k.2).filter p := by
  rw [foldr_revise_ended]
  cases hf : t.find? k.1 k.2 with
  | none => exact ite_self none
  | some g =>
    have hk : g.key = k := h hf
    have hg : t.find? g.station g.address = some g := by rw [← hk] at hf; exact hf
    cases hp : p g with
    | true =>
      rw [Option.filter_some_pos hp, if_neg]
      -- whatever is stored at the point is the selection that passes
      rintro ⟨g', hg', hk'⟩
      obtain ⟨hv, hp'⟩ := (hl g').mp hg'
      have hf' : t.find? g'.key.1 g'.key.2 = some g' := h.mem_values.mp hv
      rw [hk', hf] at hf'
      rw [Option.some.inj hf', hp'] at hp
      cases hp
    | false =>
      rw [Option.filter_some_neg hp, if_pos]
      exact ⟨g, (hl g).mpr ⟨h.mem_values.mpr hg, hp⟩, hk⟩

end SelectionTable

end Telecontrol
