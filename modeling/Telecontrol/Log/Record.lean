import Telecontrol.Document.Json
import Telecontrol.Log.Level
import Telecontrol.Log.Settings
import Telecontrol.Text.Quoted

/-! # Log lines

A **record** is what one log line says. A line begins with the time and goes on with the record,
laid out in one of the formats, in colours or without. Lines of text end up on a terminal, so a
message is written there without the characters that would command it.

Main statements: `LogRecord.commandsTerminal_messageText` (a message commands no terminal),
`LogRecord.messageText_eq_message` (one that could not is written as it is) and
`LogRecord.read?_line_json` (from a line in JSON the record is read back). -/

namespace Telecontrol

/-- What a log line says. -/
structure LogRecord where
  level : Level
  /-- The part of the program that reports. -/
  target : String
  message : String
  /-- Named texts beside the message. -/
  attributes : List (String × String) := []
  deriving DecidableEq, Repr

/-- The code of the colour of a level on a terminal. -/
def Level.colour : Level → Nat
  | .error => 31
  | .warn => 33
  | .info => 32
  | .debug => 34
  | .trace => 35

/-- A text in a style of the terminal, if there are any. -/
def styled (ansi : Bool) (style : Nat) (text : String) : String :=
  if ansi then s!"\x1b[{style}m" ++ text ++ "\x1b[0m" else text

/-- Whether a character could command a terminal. -/
def commandsTerminal (c : Char) : Bool :=
  ['\x07', '\x08', '\x0c', '\x1b', '\x7f'].contains c || (0x80 ≤ c.toNat && c.toNat < 0xA0)

/-- How a character of a message is written in a line of text. -/
def harmless (c : Char) : List Char :=
  if commandsTerminal c then
    -- one octet has two digits, anything else is in braces
    if c.toNat < 0x80 then ['\\', 'x'] ++ (Nat.toDigits 16 (0x100 + c.toNat)).drop 1
    else ['\\', 'u', '\x7b'] ++ Nat.toDigits 16 c.toNat ++ ['\x7d']
  else [c]

namespace LogRecord

/-- The message in a line of text, where it cannot command a terminal. -/
def messageText (r : LogRecord) : String := String.ofList (r.message.toList.flatMap harmless)

/-- A character that commands a terminal is written with others, which do not. -/
theorem commandsTerminal_harmless (c : Char) : ∀ d ∈ harmless c, commandsTerminal d = false := by
  have hall : ((List.range 0xA0).map Char.ofNat).all (fun c =>
      (harmless c).all (!commandsTerminal ·)) = true := by decide +kernel
  have hsmall {n : Nat} (hn : n < 0xA0) :
      ∀ d ∈ harmless (Char.ofNat n), commandsTerminal d = false := fun d hd => by
    have hn := List.all_eq_true.mp hall _ (List.mem_map_of_mem (List.mem_range.mpr hn))
    simpa using List.all_eq_true.mp hn d hd
  cases hc : commandsTerminal c with
  | false =>
    intro d hd
    rw [harmless, hc] at hd
    exact List.mem_singleton.mp hd ▸ hc
  | true =>
    -- all such characters are among the first 0xA0, which were looked through
    have hlt : c.toNat < 0xA0 := by
      simp only [commandsTerminal, Bool.or_eq_true, Bool.and_eq_true, decide_eq_true_eq] at hc
      rcases hc with hc | ⟨-, hlt⟩
      · simp only [List.contains_eq_mem, List.mem_cons, List.not_mem_nil, decide_eq_true_eq,
          or_false] at hc
        rcases hc with rfl | rfl | rfl | rfl | rfl <;> decide
      · exact hlt
    rw [← Char.ofNat_toNat c]
    exact hsmall hlt

/-- Nothing in a message commands a terminal where it is written in a line of text. -/
theorem commandsTerminal_messageText (r : LogRecord) :
    ∀ c ∈ r.messageText.toList, commandsTerminal c = false := fun c hc => by
  rw [messageText, String.toList_ofList] at hc
  obtain ⟨d, -, hd⟩ := List.mem_flatMap.mp hc
  exact commandsTerminal_harmless d c hd

/-- A message that could not command a terminal is written as it is. -/
theorem messageText_eq_message (r : LogRecord)
    (h : ∀ c ∈ r.message.toList, commandsTerminal c = false) : r.messageText = r.message := by
  have pure (cs : List Char) (h : ∀ c ∈ cs, commandsTerminal c = false) :
      cs.flatMap harmless = cs := by
    induction cs with
    | nil => rfl
    | cons c cs ih =>
      have hc : harmless c = [c] := by simp [harmless, h c List.mem_cons_self]
      simp [hc, ih fun d hd => h d (List.mem_cons_of_mem c hd)]
  rw [messageText, pure _ h, String.ofList_toList]

/-- The attributes after a message, each with a space in front. Names are italic, equals signs dim.
-/
def attributesText (ansi : Bool) (r : LogRecord) : String :=
  String.join (r.attributes.map fun (name, value) =>
    " " ++ styled ansi 3 name ++ styled ansi 2 "=" ++ Quoted.text value)

/-- The record after the time: the level in brackets, the target, a colon and the message. -/
def bracketed (ansi : Bool) (r : LogRecord) : String :=
  styled ansi r.level.colour ("[" ++ r.level.name ++ "]") ++ " " ++ r.target ++ ": " ++
    r.messageText ++ r.attributesText ansi

/-- The record after the time, with the level on the right of five columns. -/
def compact (ansi : Bool) (r : LogRecord) : String :=
  let blanks := String.ofList (List.replicate (5 - r.level.name.length) ' ')
  styled ansi r.level.colour (blanks ++ r.level.name) ++ " " ++ styled ansi 2 r.target ++
    styled ansi 2 ":" ++ " " ++ r.messageText ++ r.attributesText ansi

/-- The record as the members of an object. -/
def members (r : LogRecord) : String :=
  let fields := ("message", r.message) :: r.attributes
  let fields := fields.map fun (name, value) => Json.quote name ++ ":" ++ Json.quote value
  "\"level\":" ++ Json.quote r.level.name ++ ",\"fields\":\x7b" ++ ",".intercalate fields ++
    "\x7d,\"target\":" ++ Json.quote r.target ++ ",\"threadName\":\"main\""

/-- A line of the log: a time and a record. The pretty format is laid out like the compact one. -/
def line (format : LogFormat) (ansi : Bool) (time : String) (r : LogRecord) : String :=
  match format with
  | .bracketed => time ++ " " ++ r.bracketed ansi
  | .compact | .pretty => styled ansi 2 time ++ " " ++ r.compact ansi
  | .json => "\x7b\"timestamp\":" ++ Json.quote time ++ "," ++ r.members ++ "\x7d"

open Json

/-- The tokens of a line in JSON. -/
def tokens (time : String) (r : LogRecord) : List Token :=
  .openMap :: (entry ("timestamp", time) ++ .comma :: (entry ("level", r.level.name) ++
    .comma :: .quoted (written "fields") :: .colon :: .openMap ::
      ([Token.comma].intercalate ((("message", r.message) :: r.attributes).map entry) ++
        .closeMap :: .comma :: (entry ("target", r.target) ++
          .comma :: (entry ("threadName", "main") ++ [.closeMap])))))

/-- A line in JSON scans as these tokens. -/
theorem scans_line_json (ansi : Bool) (time : String) (r : LogRecord) :
    Scans (r.line .json ansi time) (r.tokens time) := by
  have hcolon : Scans ":" [.colon] := fun _ => rfl
  have hentry (e : String × String) : Scans (quote e.1 ++ ":" ++ quote e.2) (entry e) :=
    ((scans_quote e.1).append hcolon).append (scans_quote e.2)
  have hfields := scans_intercalate hentry (("message", r.message) :: r.attributes)
  have hopen : Scans "\x7b\"timestamp\":" [.openMap, .quoted (written "timestamp"), .colon] :=
    fun _ => rfl
  have hlevel : Scans "\"level\":" [.quoted (written "level"), .colon] := fun _ => rfl
  have hinner : Scans ",\"fields\":\x7b" [.comma, .quoted (written "fields"), .colon, .openMap] :=
    fun _ => rfl
  have htarget : Scans "\x7d,\"target\":"
      [.closeMap, .comma, .quoted (written "target"), .colon] := fun _ => rfl
  have hthread : Scans ",\"threadName\":\"main\"" (.comma :: entry ("threadName", "main")) :=
    fun _ => rfl
  have hcomma : Scans "," [.comma] := fun _ => rfl
  have hclose : Scans "\x7d" [.closeMap] := fun _ => rfl
  -- the pieces in the order in which they are written
  have hmembers : Scans r.members _ :=
    (((((hlevel.append (scans_quote _)).append hinner).append hfields).append htarget).append
      (scans_quote r.target)).append hthread
  have hline := (((hopen.append (scans_quote time)).append hcomma).append hmembers).append hclose
  rw [tokens]
  simp only [entry, List.append_assoc, List.cons_append, List.nil_append] at hline ⊢
  exact hline

/-- The object that a record is written as; of attributes of one name the last one counts. -/
def object (time : String) (r : LogRecord) : Document :=
  .map [("timestamp", .text time), ("level", .text r.level.name),
    ("fields", .map (texts (("message", r.message) :: r.attributes))),
    ("target", .text r.target), ("threadName", .text "main")]

/-- **From a line in JSON the record is read back**, whatever its texts are. -/
theorem read?_line_json (ansi : Bool) (time : String) (r : LogRecord) :
    read? (r.line .json ansi time) = some (r.object time) := by
  have hread : (r.tokens time).foldlM Reader.step? .start =
      some ⟨[], .complete (r.object time)⟩ := by
    rw [tokens, List.foldlM_cons]
    show List.foldlM Reader.step? ⟨[.map [] none], .entry⟩ _ = _
    rw [Reader.foldlM_entry _ _ _ (.inr rfl), Reader.foldlM_comma_entry,
      Reader.foldlM_comma_map _ _ (by decide), Reader.foldlM_entries _ _ _ _ (.inr rfl),
      Reader.foldlM_closeMap, Reader.foldlM_comma_entry, Reader.foldlM_comma_entry]
    simp [Document.put, Reader.step?, Reader.close, Reader.fill, object, texts]
  rw [read?, (scans_line_json ansi time r).tokens?]
  show (List.foldlM Reader.step? .start (r.tokens time)).bind _ = _
  rw [hread]
  rfl

end LogRecord

end Telecontrol
