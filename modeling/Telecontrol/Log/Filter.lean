import Telecontrol.Document.Numeral
import Telecontrol.Log.Record
import Telecontrol.Text.Blank
import Telecontrol.Text.Pattern

/-! # Filters of the log

A **filter** says which records are written. It is a list of directives: a level for every target,
or for the targets that begin with a name. Of the directives that concern a record the most specific
decides.

Main statements: `LogFilter.decides_append`, by which a later directive wins over one that is as
specific, `LogFilter.isAsSpecific_of_decides?` (what decides is as specific as anything that
concerns the record) and `LogFilter.admits_of_le` (what is more serious is written as well). -/

namespace Telecontrol

/-- Why a filter was refused. -/
inductive FilterFault where
  | directive
  | level
  /-- The value of an attribute is no pattern. -/
  | pattern
  deriving DecidableEq, Repr

/-- The fault in words. -/
def FilterFault.text : FilterFault → String
  | .directive => "invalid filter directive"
  | .level => "error parsing level filter: expected one of \"off\", \"error\", \"warn\", " ++
      "\"info\", \"debug\", \"trace\", or a number 0-5"
  | .pattern => "invalid field filter: error building NFA"

/-- A **directive**: how serious the records must be that it concerns. -/
structure Directive where
  /-- What the target begins with; without it every target is concerned. -/
  target : Option String := none
  /-- Only records within a span of this name are concerned. -/
  span : Option String := none
  /-- Only records with the attribute of this name are concerned. -/
  attributeName : Option String := none
  /-- Whether the attribute must have a certain value. -/
  hasValue : Bool := false
  /-- The least serious level that is written; none at all without one. -/
  threshold : Option Level := some .trace
  deriving DecidableEq, Repr

namespace Directive

/-- The threshold that a name or a number from 0 to 5 stands for. -/
def threshold? (cs : List Char) : Option (Option Level) :=
  let names : List (String × Option Level) :=
    [("off", none), ("error", some .error), ("warn", some .warn), ("info", some .info),
      ("debug", some .debug), ("trace", some .trace)]
  match Numeral.splitSign cs with
  -- levels have names or numbers; a number may have a plus sign
  | (some '-', _) => none
  | (_, digits) =>
    match Numeral.digits? 10 digits with
    | some n => names[n]?.map (·.2)
    | none => names.lookup (String.ofList (cs.map Char.toLower))

/-- Where in a directive a text has been read to, with the places where a part of it began. -/
inductive ReadState where
  | start
  | levelOrTarget (from_ : Nat)
  | span (from_ : Nat)
  | attribute (from_ : Nat)
  | attributeRead
  | closed
  | level (from_ : Nat)

/-- Characters with their places, which are counted in octets. -/
def places (start : Nat) : List Char → List (Char × Nat)
  | [] => []
  | c :: cs => (c, start) :: places (start + c.utf8Size) cs

/-- The characters of a text from one place up to another. -/
def cut (text : List Char) (low high : Nat) : List Char :=
  ((places 0 text).filter fun e => low ≤ e.2 && e.2 < high).map (·.1)

/-- The characters of a text from a place on. -/
def cutFrom (text : List Char) (low : Nat) : List Char :=
  ((places 0 text).filter fun e => low ≤ e.2).map (·.1)

/-- Whether a directive without brackets may begin with a character. -/
def begins (c : Char) : Bool := Letter.isLetter c || c = '-' || c = ':' || c = '_'

/-- Whether a text may be the value of an attribute: a number, or a pattern. -/
def isValue (cs : List Char) : Bool :=
  let unsigned := String.ofList ((Numeral.splitSign cs).2.map Char.toLower)
  ["inf", "infinity", "nan"].contains unsigned || (Numeral.read? cs).isSome || Pattern.isPattern cs

/-- A directive with an attribute; what follows a second equals sign does not count. -/
def withAttribute (d : Directive) (cs : List Char) : Except FilterFault Directive :=
  match cs.splitOn '=' with
  | [] | [[]] => .error .directive
  | [name] => .ok { d with attributeName := some (String.ofList name) }
  | name :: value :: _ =>
    if isValue value then
      .ok { d with attributeName := some (String.ofList name), hasValue := true }
    else .error .pattern

/-- Read the character at a place. -/
def step (text : List Char) (p : Directive × ReadState) (e : Char × Nat) :
    Except FilterFault (Directive × ReadState) :=
  let (d, state) := p
  let (c, i) := e
  match state with
  | .start =>
    if c = '[' then .ok (d, .span (i + 1))
    else if begins c then .ok (d, .levelOrTarget i)
    else .error .directive
  | .levelOrTarget start =>
    let named := { d with target := some (String.ofList (cut text start i)) }
    if c = '=' then .ok (named, .level (i + 1))
    else if c = '[' then .ok (named, .span (i + 1))
    else .ok (d, state)
  | .span start =>
    let name := String.ofList (cut text start i)
    if c = ']' then .ok ({ d with span := some name }, .closed)
    else if c = '\x7b' then
      .ok ({ d with span := if name.isEmpty then none else some name }, .attribute (i + 1))
    else .ok (d, state)
  | .attribute start =>
    if c = '\x7d' then (d.withAttribute (cut text start i)).map fun d => (d, .attributeRead)
    else .ok (d, state)
  | .attributeRead => if c = ']' then .ok (d, .closed) else .error .directive
  | .closed => if c = '=' then .ok (d, .level (i + 1)) else .error .directive
  | .level _ => .ok (d, state)

/-- The directive at the end of a text. -/
def finish (text : List Char) (d : Directive) : ReadState → Except FilterFault Directive
  | .levelOrTarget start =>
    let rest := cutFrom text start
    match threshold? rest with
    | some threshold => .ok { d with threshold }
    | none => .ok { d with target := some (String.ofList rest) }
  | .level start =>
    match cutFrom text start with
    | [] => .ok d
    | rest =>
      match threshold? rest with
      | some threshold => .ok { d with threshold }
      | none => .error .level
  | .closed => .ok d
  | _ => .error .directive

/-- Read a directive. Its parts are found in the text without the blanks around it, but counted from
the beginning of the whole text. -/
def ofText (text : List Char) : Except FilterFault Directive := do
  -- the places are those of the trimmed text, the parts are cut from the whole one
  let (d, state) ← (places 0 (Blank.trim text)).foldlM (step text) ({}, .start)
  d.finish text state

/-- Whether a directive concerns a record. There are no spans, so it concerns none if it asks for
one or for the value of an attribute. -/
def concerns (d : Directive) (r : LogRecord) : Bool :=
  d.span.isNone && !d.hasValue && d.target.all (r.target.startsWith ·) &&
    d.attributeName.all fun name => name = "message" || (r.attributes.any fun a => a.1 = name)

/-- Whether an attribute is at least as specific as another: any one is more so than none, and of
two the one that comes later in the alphabet. -/
def isAttributeAsSpecific : Option String → Option String → Bool
  | _, none => true
  | none, some _ => false
  | some a, some b => b ≤ a

/-- How specific the target of a directive is. -/
def targetLength (d : Directive) : Nat := d.target.elim 0 fun t => t.utf8ByteSize + 1

/-- Whether a directive is at least as specific as another one that concerns the same record: first
by its target, then by its attribute. -/
def isAsSpecific (d e : Directive) : Bool :=
  e.targetLength < d.targetLength ||
    (e.targetLength == d.targetLength && isAttributeAsSpecific d.attributeName e.attributeName)

/-- Of two attributes one is as specific as the other. -/
theorem isAttributeAsSpecific_total (a b : Option String) :
    isAttributeAsSpecific a b = true ∨ isAttributeAsSpecific b a = true := by
  cases a with
  | none => cases b <;> simp [isAttributeAsSpecific]
  | some a =>
    cases b with
    | none => exact .inl rfl
    | some b => simpa [isAttributeAsSpecific] using String.le_total b a

/-- What is as specific as an attribute is as specific as all that the attribute is as specific as.
-/
theorem isAttributeAsSpecific_trans {a b c : Option String}
    (hab : isAttributeAsSpecific a b = true) (hbc : isAttributeAsSpecific b c = true) :
    isAttributeAsSpecific a c = true := by
  cases c with
  | none => cases a <;> rfl
  | some c =>
    cases b with
    | none => cases hbc
    | some b =>
      cases a with
      | none => cases hab
      | some a =>
        simp only [isAttributeAsSpecific, decide_eq_true_eq] at hab hbc ⊢
        exact String.le_trans hbc hab

/-- First the targets are compared, then the attributes. -/
theorem isAsSpecific_iff {d e : Directive} : d.isAsSpecific e = true ↔
    e.targetLength < d.targetLength ∨ e.targetLength = d.targetLength ∧
      isAttributeAsSpecific d.attributeName e.attributeName = true := by
  simp [isAsSpecific]

/-- Of two directives one is as specific as the other. -/
theorem isAsSpecific_total (d e : Directive) :
    d.isAsSpecific e = true ∨ e.isAsSpecific d = true := by
  simp only [isAsSpecific_iff]
  rcases Nat.lt_trichotomy d.targetLength e.targetLength with hlt | heq | hgt
  · exact .inr (.inl hlt)
  · rcases isAttributeAsSpecific_total d.attributeName e.attributeName with h | h
    · exact .inl (.inr ⟨heq.symm, h⟩)
    · exact .inr (.inr ⟨heq, h⟩)
  · exact .inl (.inl hgt)

/-- A directive is as specific as itself. -/
theorem isAsSpecific_self (d : Directive) : d.isAsSpecific d = true :=
  or_self_iff.mp (isAsSpecific_total d d)

/-- What is as specific as a directive is as specific as all that the directive is as specific as.
-/
theorem isAsSpecific_trans {a b c : Directive} (hab : a.isAsSpecific b = true)
    (hbc : b.isAsSpecific c = true) : a.isAsSpecific c = true := by
  rw [isAsSpecific_iff] at *
  rcases hab with hab | ⟨hab, hattribute⟩
  · left
    rcases hbc with hbc | ⟨hbc, -⟩ <;> omega
  · rcases hbc with hbc | ⟨hbc, hattribute'⟩
    · left
      omega
    · exact .inr ⟨hbc.trans hab, isAttributeAsSpecific_trans hattribute hattribute'⟩

/-- Whether a directive concerns a record depends on its target and its attributes only. -/
theorem concerns_congr (d : Directive) {r r' : LogRecord} (htarget : r.target = r'.target)
    (hattributes : r.attributes = r'.attributes) : d.concerns r = d.concerns r' := by
  rw [concerns, concerns, htarget, hattributes]

end Directive

/-- A **filter** of the log. -/
abbrev LogFilter := List Directive

namespace LogFilter

/-- The directive that decides about a record, after others have been looked at. -/
def decidesFrom (r : LogRecord) (best : Option Directive) (f : LogFilter) : Option Directive :=
  f.foldl (fun best d =>
    -- of two as specific the later one counts
    if d.concerns r && best.all d.isAsSpecific then some d else best) best

/-- The directive that decides about a record: the last of the most specific ones. -/
def decides? (f : LogFilter) (r : LogRecord) : Option Directive := decidesFrom r none f

/-- The last directive decides if it concerns the record and no other is more specific. -/
theorem decides_append (f : LogFilter) (d : Directive) (r : LogRecord) :
    decides? (f ++ [d]) r =
      if d.concerns r && (decides? f r).all d.isAsSpecific then some d else decides? f r := by
  simp [decides?, decidesFrom]

/-- What decides after others were looked at is the best of them or concerns the record, and it is
as specific as the best of them and as any later one that concerns the record. -/
theorem isAsSpecific_of_decidesFrom {r : LogRecord} {best : Option Directive} {f : LogFilter}
    {d : Directive} (h : decidesFrom r best f = some d) :
    (best = some d ∨ d ∈ f ∧ d.concerns r = true) ∧ (∀ b ∈ best, d.isAsSpecific b = true) ∧
      ∀ e ∈ f, e.concerns r = true → d.isAsSpecific e = true := by
  induction f generalizing best with
  | nil =>
    refine ⟨.inl h, fun b hb => ?_, fun _ he => absurd he List.not_mem_nil⟩
    obtain rfl : d = b := Option.some.inj (h.symm.trans hb)
    exact d.isAsSpecific_self
  | cons x f ih =>
    rw [decidesFrom, List.foldl_cons] at h
    split at h
    · rename_i hx
      obtain ⟨hconcerns, hbest⟩ := Bool.and_eq_true_iff.mp hx
      obtain ⟨horigin, hspecific, hlater⟩ := ih h
      have hdx : d.isAsSpecific x = true := hspecific x rfl
      refine ⟨.inr ?_, fun b hb => ?_, List.forall_mem_cons.mpr ⟨fun _ => hdx, hlater⟩⟩
      · rcases horigin with hd | ⟨hmem, hd⟩
        · obtain rfl := Option.some.inj hd
          exact ⟨List.mem_cons_self, hconcerns⟩
        · exact ⟨List.mem_cons_of_mem _ hmem, hd⟩
      · exact Directive.isAsSpecific_trans hdx ((Option.all_eq_true _ _).mp hbest b hb)
    · rename_i hx
      obtain ⟨horigin, hspecific, hlater⟩ := ih h
      refine ⟨horigin.imp_right fun ⟨hmem, hd⟩ => ⟨List.mem_cons_of_mem _ hmem, hd⟩, hspecific,
        List.forall_mem_cons.mpr ⟨fun hconcerns => ?_, hlater⟩⟩
      -- the directive was passed over for one that is more specific
      cases hb : best with
      | none => exact absurd (by rw [hconcerns, hb]; rfl) hx
      | some b =>
        have hnot : x.isAsSpecific b ≠ true := fun hxb => hx (by rw [hconcerns, hb]; exact hxb)
        exact Directive.isAsSpecific_trans (hspecific b hb)
          ((Directive.isAsSpecific_total x b).resolve_left hnot)

/-- The directive that decides is one of the filter and concerns the record, and it is as specific
as any other one that does. -/
theorem isAsSpecific_of_decides? {f : LogFilter} {r : LogRecord} {d : Directive}
    (h : decides? f r = some d) :
    d ∈ f ∧ d.concerns r = true ∧ ∀ e ∈ f, e.concerns r = true → d.isAsSpecific e = true := by
  obtain ⟨horigin, -, hspecific⟩ := isAsSpecific_of_decidesFrom h
  obtain ⟨hmem, hconcerns⟩ := horigin.resolve_left nofun
  exact ⟨hmem, hconcerns, hspecific⟩

/-- The filter of a text; commas divide its directives. -/
def ofText (text : String) : Except FilterFault LogFilter :=
  ((text.toList.splitOn ',').filter fun part => part ≠ []).mapM Directive.ofText

/-- Whether a record is written. Without directives only errors are. -/
def admits (f : LogFilter) (r : LogRecord) : Bool :=
  let f := if f.isEmpty then [{ threshold := some .error }] else f
  match (decides? f r).bind (·.threshold) with
  | some least => r.level.severity ≤ least.severity
  | none => false

/-- Which directive decides depends on the target and the attributes of the record only. -/
theorem decides?_congr (f : LogFilter) {r r' : LogRecord} (htarget : r.target = r'.target)
    (hattributes : r.attributes = r'.attributes) : decides? f r = decides? f r' := by
  have hconcerns (d : Directive) : d.concerns r = d.concerns r' :=
    d.concerns_congr htarget hattributes
  simp only [decides?, decidesFrom, hconcerns]

/-- Where a record is written, one that is more serious is written as well. -/
theorem admits_of_le {f : LogFilter} {r r' : LogRecord} (h : f.admits r = true)
    (htarget : r.target = r'.target) (hattributes : r.attributes = r'.attributes)
    (hlevel : r'.level.severity ≤ r.level.severity) : f.admits r' = true := by
  rw [admits, decides?_congr _ htarget hattributes] at h
  rw [admits]
  split at h
  · rename_i least hleast
    exact decide_eq_true (Nat.le_trans hlevel (of_decide_eq_true h))
  · cases h

/-- A level by itself admits what is at least as serious, whatever the target is. Without any
directive only errors are written. -/
theorem admits_threshold (least : Option Level) (r : LogRecord) :
    admits [{ threshold := least }] r = least.any (r.level.severity ≤ ·.severity) ∧
      admits [] r = admits [{ threshold := some .error }] r := by
  cases least <;> exact ⟨rfl, rfl⟩

end LogFilter

end Telecontrol
