import Telecontrol.Document.Json.Value

/-! # JSON documents

A JSON document in its strict form: strings and keys in double quotes, no comments, no comma at the
end of a container, and nothing after the value. A key that comes twice has its last value. A number
beyond double precision is refused, also where nobody reads it.

Main statements: `Json.read?_proper` (what is read is proper), `Json.read?_quote` (a string that was
written by `Json.quote` is read back) and `Json.Reader.foldlM_entries` (so are the entries of a
map). -/

namespace Telecontrol.Json

/-- Read a JSON document. -/
def read? (text : String) : Option Document := do
  let tokens ← tokens? text.toList
  (← tokens.foldlM Reader.step? .start).document?

/-- How a character is written in a string. -/
def quoteChar (c : Char) : List Char :=
  match c with
  | '"' => ['\\', '"']
  | '\\' => ['\\', '\\']
  | '\x08' => ['\\', 'b']
  | '\x0c' => ['\\', 'f']
  | '\n' => ['\\', 'n']
  | '\r' => ['\\', 'r']
  | '\t' => ['\\', 't']
  | c =>
    if c.toNat < 0x20 then
      ['\\', 'u', '0', '0'] ++ (Nat.toDigits 16 (0x100 + c.toNat)).drop 1
    else [c]

/-- What stands between the quotes of a string that is written. -/
def written (s : String) : List Char := s.toList.flatMap quoteChar

/-- Write a string. -/
def quote (s : String) : String := String.ofList ('"' :: written s ++ ['"'])

/-- What is read is proper. -/
theorem read?_proper {text : String} {d : Document} (h : read? text = some d) : d.Proper := by
  obtain ⟨tokens, -, h⟩ := Option.bind_eq_some_iff.mp h
  obtain ⟨r, hr, hd⟩ := Option.bind_eq_some_iff.mp h
  have hproper : r.Proper :=
    Reader.proper_of_foldlM ⟨fun _ hc => absurd hc List.not_mem_nil, fun _ => Slot.noConfusion⟩ hr
  rw [Reader.document?] at hd
  split at hd
  · rename_i d' hslot
    exact hproper.document d (Option.some.inj hd ▸ hslot)
  · cases hd

/-! ## Strings that were written -/

/-- The two last digits of a control. -/
theorem digits_control : ∀ n < 0x20,
    ((Nat.toDigits 16 (0x100 + n)).drop 1).map (Numeral.digit? 16) =
      [some (n / 16), some (n % 16)] := by decide

/-- How characters are written: as they are, with a letter after a backslash, or by number. -/
theorem quoteChar_cases (c : Char) :
    (∃ e, quoteChar c = ['\\', e] ∧ escapes.short e = some c) ∨
    (∃ d e, quoteChar c = ['\\', 'u', '0', '0', d, e] ∧ Numeral.digit? 16 d = some (c.toNat / 16) ∧
      Numeral.digit? 16 e = some (c.toNat % 16)) ∨
    quoteChar c = [c] ∧ c ≠ '"' ∧ c ≠ '\\' ∧ escapes.admits c = true := by
  unfold quoteChar
  split
  · exact .inl ⟨'"', rfl, rfl⟩
  · exact .inl ⟨'\\', rfl, rfl⟩
  · exact .inl ⟨'b', rfl, rfl⟩
  · exact .inl ⟨'f', rfl, rfl⟩
  · exact .inl ⟨'n', rfl, rfl⟩
  · exact .inl ⟨'r', rfl, rfl⟩
  · exact .inl ⟨'t', rfl, rfl⟩
  · rename_i hquote hslash _ _ _ _ _
    split
    · rename_i hlt
      right; left
      -- a control character is written by two hexadecimal digits
      have hdigits := digits_control c.toNat hlt
      obtain ⟨d, rest, hd, hd', hrest⟩ := List.map_eq_cons_iff.mp hdigits
      obtain ⟨e, rest', he, he', hrest'⟩ := List.map_eq_cons_iff.mp hrest
      obtain rfl := List.map_eq_nil_iff.mp hrest'
      exact ⟨d, e, by rw [hd, he]; rfl, hd', he'⟩
    · rename_i hge
      exact .inr (.inr ⟨rfl, hquote, hslash, decide_eq_true (Nat.le_of_not_lt hge)⟩)

/-- A character that is written is read back. -/
theorem units?_quoteChar (c : Char) (cs : List Char) :
    escapes.units? 0 0 (quoteChar c ++ cs) = (escapes.units? 0 0 cs).map (c.toNat :: ·) := by
  rcases quoteChar_cases c with ⟨e, hc, he⟩ | ⟨d, e, hc, hd, he⟩ | ⟨hc, -, hslash, hadmits⟩
  · rw [hc, List.cons_append, List.cons_append, List.nil_append, EscapeRule.units?, if_pos rfl]
    rw [he]
  · have hzero : Numeral.digit? 16 '0' = some 0 := rfl
    have hvalue : ((0 * 16 + 0) * 16 + 0) * 16 + c.toNat / 16 = c.toNat / 16 := by omega
    rw [hc]
    simp only [List.cons_append, List.nil_append]
    rw [EscapeRule.units?, if_pos rfl]
    show (escapes.units? 4 0 ('0' :: '0' :: d :: e :: cs)) = _
    simp only [EscapeRule.units?, hzero, hd, he, Option.bind_some]
    rw [if_neg (by decide), if_neg (by decide), if_neg (by decide), if_pos trivial, hvalue,
      Nat.div_add_mod']
  · rw [hc, List.singleton_append, EscapeRule.units?.eq_def]
    show (if c = '\\' then _ else if escapes.admits c then _ else _) = _
    rw [if_neg hslash, if_pos hadmits]

/-- A text that is written is read back, as numbers of characters. -/
theorem units?_flatMap_quoteChar (cs : List Char) :
    escapes.units? 0 0 (cs.flatMap quoteChar) = some (cs.map Char.toNat) := by
  induction cs with
  | nil => rfl
  | cons c cs ih => rw [List.flatMap_cons, units?_quoteChar, ih]; rfl

/-- The number of a character is no half of a surrogate pair, and stands for the character. -/
theorem join?_map_toNat (cs : List Char) : escapes.join? (cs.map Char.toNat) = some cs := by
  have hchar (c : Char) : EscapeRule.char? c.toNat = some c := by
    rw [EscapeRule.char?, if_pos (show c.toNat.isValidChar from c.valid), Char.ofNat_toNat]
  have hhigh (c : Char) : EscapeRule.isHigh c.toNat = false := by
    have hvalid : c.toNat < 0xD800 ∨ 0xDFFF < c.toNat ∧ c.toNat < 0x110000 := c.valid
    rw [EscapeRule.isHigh, Bool.and_eq_false_iff, decide_eq_false_iff_not, decide_eq_false_iff_not]
    omega
  induction cs with
  | nil => rfl
  | cons c cs ih =>
    cases cs with
    | nil => rw [List.map_cons, List.map_nil, EscapeRule.join?, hchar]; rfl
    | cons c' cs =>
      rw [List.map_cons] at ih
      rw [List.map_cons, List.map_cons, EscapeRule.join?, hhigh, Bool.and_false,
        if_neg Bool.false_ne_true, hchar, ih]
      rfl

/-- Between quotes a text is read to its end when it is written there. -/
theorem Scanner.foldl_quoteChar (tokens : List Token) (read : List Char) (cs : List Char) :
    (cs.flatMap quoteChar).foldl Scanner.step ⟨tokens, .quoted read⟩ =
      ⟨tokens, .quoted ((cs.flatMap quoteChar).reverse ++ read)⟩ := by
  induction cs generalizing read with
  | nil => rfl
  | cons c cs ih =>
    rw [List.flatMap_cons, List.foldl_append, List.reverse_append, List.append_assoc]
    have hone : (quoteChar c).foldl Scanner.step ⟨tokens, .quoted read⟩ =
        ⟨tokens, .quoted ((quoteChar c).reverse ++ read)⟩ := by
      -- no character of what is written ends the quoted text, and a backslash takes the next one
      -- along
      rcases quoteChar_cases c with ⟨e, hc, -⟩ | ⟨d, e, hc, hd, he⟩ | ⟨hc, hquote, hslash, -⟩
      · rw [hc]; rfl
      · have hplain {d : Char} {n : Nat} (hd : Numeral.digit? 16 d = some n) : d ≠ '"' ∧ d ≠ '\\' :=
          ⟨fun h => (by subst h; cases hd), fun h => (by subst h; cases hd)⟩
        rw [hc, show ['\\', 'u', '0', '0', d, e] = ['\\', 'u', '0', '0'] ++ [d, e] from rfl,
          List.foldl_append]
        show List.foldl _ (Scanner.mk tokens (.quoted ('0' :: '0' :: 'u' :: '\\' :: read))) _ = _
        rw [List.foldl_cons, step_quoted _ _ _ (hplain hd).1 (hplain hd).2, List.foldl_cons,
          step_quoted _ _ _ (hplain he).1 (hplain he).2]
        rfl
      · rw [hc, List.foldl_cons, step_quoted _ _ _ hquote hslash]
        rfl
    rw [hone, ih]

/-- A string that is written between two tokens is one more token. -/
theorem Scanner.foldl_quote (tokens : List Token) (s : String) :
    (quote s).toList.foldl Scanner.step ⟨tokens, .between⟩ =
      ⟨.quoted (written s) :: tokens, .between⟩ := by
  rw [quote, String.toList_ofList, List.cons_append, List.foldl_cons, List.foldl_append]
  show List.foldl _ (List.foldl _ (Scanner.mk tokens (.quoted [])) _) _ = _
  rw [written, foldl_quoteChar, List.append_nil]
  show (Scanner.mk (.quoted (s.toList.flatMap quoteChar).reverse.reverse :: tokens) .between) = _
  rw [List.reverse_reverse]

/-- What stands between the quotes of a string that was written is that string. -/
theorem decode?_written (s : String) : escapes.decode? (written s) = some s := by
  rw [EscapeRule.decode?, written, units?_flatMap_quoteChar]
  show (escapes.join? (s.toList.map Char.toNat)).bind _ = _
  rw [join?_map_toNat]
  exact congrArg some String.ofList_toList

/-! ## Texts that scan -/

/-- A text **scans** as tokens when it is cut into them between any others. -/
def Scans (text : String) (ts : List Token) : Prop :=
  ∀ tokens, text.toList.foldl Scanner.step ⟨tokens, .between⟩ = ⟨ts.reverse ++ tokens, .between⟩

/-- A string that is written scans as one token. -/
theorem scans_quote (s : String) : Scans (quote s) [.quoted (written s)] := fun tokens =>
  Scanner.foldl_quote tokens s

/-- One text after another scans as the tokens of both. -/
theorem Scans.append {a b : String} {ts us : List Token} (ha : Scans a ts) (hb : Scans b us) :
    Scans (a ++ b) (ts ++ us) := fun tokens => by
  rw [String.toList_append, List.foldl_append, ha, hb, List.reverse_append, List.append_assoc]

/-- Texts with commas between them scan as their tokens with commas between them. -/
theorem scans_intercalate {α : Type} {text : α → String} {ts : α → List Token}
    (h : ∀ a, Scans (text a) (ts a)) (as : List α) :
    Scans (",".intercalate (as.map text)) ([Token.comma].intercalate (as.map ts)) := by
  intro tokens
  rw [String.toList_intercalate]
  induction as generalizing tokens with
  | nil => rfl
  | cons a as ih =>
    cases as with
    | nil =>
      simp only [List.map_cons, List.map_nil, List.intercalate_singleton]
      exact h a tokens
    | cons b bs =>
      simp only [List.map_cons, List.intercalate_cons_cons, List.foldl_append] at ih ⊢
      have hcomma (tokens : List Token) : ",".toList.foldl Scanner.step ⟨tokens, .between⟩ =
          ⟨.comma :: tokens, .between⟩ := rfl
      rw [h a, hcomma, ih]
      simp

/-- A text that scans has these tokens. -/
theorem Scans.tokens? {text : String} {ts : List Token} (h : Scans text ts) :
    tokens? text.toList = some ts := by
  rw [Json.tokens?, Scanner.start, h]
  exact congrArg some ((List.append_nil _).symm ▸ List.reverse_reverse ts)

/-! ## Entries that were written -/

/-- The tokens of an entry with a text. -/
def entry (e : String × String) : List Token :=
  [.quoted (written e.1), .colon, .quoted (written e.2)]

/-- The texts of entries, each under its key. -/
def texts (es : List (String × String)) : Document.Fields :=
  es.foldl (fun fields e => Document.put e.1 (.text e.2) fields) []

namespace Reader

variable {rest : List OpenContainer} {fields : Document.Fields}

/-- After the key of an entry its text is read. -/
theorem foldlM_entry (e : String × String) (ts : List Token) (slot : Slot)
    (hslot : slot = .key ∨ slot = .entry) :
    (entry e ++ ts).foldlM step? ⟨.map fields none :: rest, slot⟩ =
      ts.foldlM step? ⟨.map (Document.put e.1 (.text e.2) fields) none :: rest, .next⟩ := by
  have hkey : Reader.step? ⟨.map fields none :: rest, slot⟩ (.quoted (written e.1)) =
      some ⟨.map fields (some e.1) :: rest, .colon⟩ := by
    have hread : Json.key? (.quoted (written e.1)) = some e.1 := decode?_written e.1
    rcases hslot with rfl | rfl <;> simp [step?, key?, hread]
  have hvalue : Reader.step? ⟨.map fields (some e.1) :: rest, .value⟩ (.quoted (written e.2)) =
      some ⟨.map (Document.put e.1 (.text e.2) fields) none :: rest, .next⟩ := by
    have hread : scalar? (.quoted (written e.2)) = some (.text e.2) := by
      rw [scalar?, decode?_written]
      rfl
    simp [step?, value?, hread, fill]
  rw [entry, List.cons_append, List.foldlM_cons, hkey]
  show List.foldlM step? (Reader.mk (.map fields (some e.1) :: rest) .value)
    (.quoted (written e.2) :: ts) = _
  rw [List.foldlM_cons, hvalue]
  rfl

/-- The entries of a map are read one after the other. -/
theorem foldlM_entries (e : String × String) (es : List (String × String)) (ts : List Token)
    (slot : Slot) (hslot : slot = .key ∨ slot = .entry) :
    ([Token.comma].intercalate ((e :: es).map entry) ++ ts).foldlM step?
        ⟨.map fields none :: rest, slot⟩ =
      ts.foldlM step? ⟨.map ((e :: es).foldl
        (fun fields e => Document.put e.1 (.text e.2) fields) fields) none :: rest, .next⟩ := by
  induction es generalizing e fields slot with
  | nil => exact foldlM_entry e ts slot hslot
  | cons e' es ih =>
    rw [List.map_cons, List.map_cons, List.intercalate_cons_cons, List.append_assoc,
      List.append_assoc, foldlM_entry e _ slot hslot]
    exact ih e' .key (.inl rfl)

/-- So is one more entry after a comma. -/
theorem foldlM_comma_entry (e : String × String) (ts : List Token) :
    (.comma :: (entry e ++ ts)).foldlM step? ⟨.map fields none :: rest, .next⟩ =
      ts.foldlM step? ⟨.map (Document.put e.1 (.text e.2) fields) none :: rest, .next⟩ :=
  foldlM_entry e ts .key (.inl rfl)

/-- After the key of an entry and an opening brace the entries of another map are read. -/
theorem foldlM_comma_map (key : String) (ts : List Token) (hdepth : rest.length + 1 < maxDepth) :
    (.comma :: .quoted (written key) :: .colon :: .openMap :: ts).foldlM step?
        ⟨.map fields none :: rest, .next⟩ =
      ts.foldlM step? ⟨.map [] none :: .map fields (some key) :: rest, .entry⟩ := by
  have hkey : Json.key? (.quoted (written key)) = some key := decode?_written key
  simp [step?, afterComma, key?, hkey, value?, open?, hdepth]

/-- At its closing brace a map is the value of its key. -/
theorem foldlM_closeMap (inner : Document.Fields) (key : String) (ts : List Token) :
    (.closeMap :: ts).foldlM step? ⟨.map inner none :: .map fields (some key) :: rest, .next⟩ =
      ts.foldlM step? ⟨.map (Document.put key (.map inner) fields) none :: rest, .next⟩ := rfl

end Reader

/-- A string that was written is read back, whatever its characters. -/
theorem read?_quote (s : String) : read? (quote s) = some (.text s) := by
  have hstep : Reader.start.step? (.quoted (written s)) = some ⟨[], .complete (.text s)⟩ := by
    show (scalar? _).bind _ = _
    rw [scalar?, decode?_written]
    rfl
  rw [read?, (scans_quote s).tokens?]
  show (List.foldlM Reader.step? Reader.start [_]).bind _ = _
  rw [List.foldlM_cons, hstep]
  rfl

end Telecontrol.Json
