import Telecontrol.Table

/-! # Type identifications

The **type identification** of a frame says what its information objects hold. The types are those
of IEC 60870-5-104, named by the mnemonics of the standard: `M_` types travel in monitor direction,
`C_` types in control direction, and the letter `T` marks the types whose objects carry a time tag.

Main statements: `TypeId.ofCode?_code` and `TypeId.code_of_ofCode?` (the codes name the types one to
one), and the same for the mnemonics in `TypeId.ofName?_name`. -/

namespace Telecontrol

/-- The **type identifications** of a controlled station. -/
inductive TypeId where
  | M_SP_NA_1
  | M_DP_NA_1
  | M_ST_NA_1
  | M_BO_NA_1
  | M_ME_NA_1
  | M_ME_NB_1
  | M_ME_NC_1
  | M_IT_NA_1
  | M_PS_NA_1
  | M_ME_ND_1
  | M_SP_TB_1
  | M_DP_TB_1
  | M_ST_TB_1
  | M_BO_TB_1
  | M_ME_TD_1
  | M_ME_TE_1
  | M_ME_TF_1
  | M_IT_TB_1
  | M_EP_TD_1
  | M_EP_TE_1
  | M_EP_TF_1
  | C_SC_NA_1
  | C_DC_NA_1
  | C_RC_NA_1
  | C_SE_NA_1
  | C_SE_NB_1
  | C_SE_NC_1
  | C_BO_NA_1
  | C_SC_TA_1
  | C_DC_TA_1
  | C_RC_TA_1
  | C_SE_TA_1
  | C_SE_TB_1
  | C_SE_TC_1
  | C_BO_TA_1
  | M_EI_NA_1
  | C_IC_NA_1
  | C_CI_NA_1
  | C_RD_NA_1
  | C_CS_NA_1
  | C_TS_TA_1
  deriving DecidableEq, Repr

namespace TypeId

/-- Every type, in ascending order of its code. -/
def all : List TypeId :=
  [.M_SP_NA_1, .M_DP_NA_1, .M_ST_NA_1, .M_BO_NA_1, .M_ME_NA_1, .M_ME_NB_1, .M_ME_NC_1,
   .M_IT_NA_1, .M_PS_NA_1, .M_ME_ND_1, .M_SP_TB_1, .M_DP_TB_1, .M_ST_TB_1, .M_BO_TB_1,
   .M_ME_TD_1, .M_ME_TE_1, .M_ME_TF_1, .M_IT_TB_1, .M_EP_TD_1, .M_EP_TE_1, .M_EP_TF_1,
   .C_SC_NA_1, .C_DC_NA_1, .C_RC_NA_1, .C_SE_NA_1, .C_SE_NB_1, .C_SE_NC_1, .C_BO_NA_1,
   .C_SC_TA_1, .C_DC_TA_1, .C_RC_TA_1, .C_SE_TA_1, .C_SE_TB_1, .C_SE_TC_1, .C_BO_TA_1,
   .M_EI_NA_1, .C_IC_NA_1, .C_CI_NA_1, .C_RD_NA_1, .C_CS_NA_1, .C_TS_TA_1]

/-- The code of a type in the first octet of a frame. -/
def code : TypeId → UInt8
  | .M_SP_NA_1 => 1
  | .M_DP_NA_1 => 3
  | .M_ST_NA_1 => 5
  | .M_BO_NA_1 => 7
  | .M_ME_NA_1 => 9
  | .M_ME_NB_1 => 11
  | .M_ME_NC_1 => 13
  | .M_IT_NA_1 => 15
  | .M_PS_NA_1 => 20
  | .M_ME_ND_1 => 21
  | .M_SP_TB_1 => 30
  | .M_DP_TB_1 => 31
  | .M_ST_TB_1 => 32
  | .M_BO_TB_1 => 33
  | .M_ME_TD_1 => 34
  | .M_ME_TE_1 => 35
  | .M_ME_TF_1 => 36
  | .M_IT_TB_1 => 37
  | .M_EP_TD_1 => 38
  | .M_EP_TE_1 => 39
  | .M_EP_TF_1 => 40
  | .C_SC_NA_1 => 45
  | .C_DC_NA_1 => 46
  | .C_RC_NA_1 => 47
  | .C_SE_NA_1 => 48
  | .C_SE_NB_1 => 49
  | .C_SE_NC_1 => 50
  | .C_BO_NA_1 => 51
  | .C_SC_TA_1 => 58
  | .C_DC_TA_1 => 59
  | .C_RC_TA_1 => 60
  | .C_SE_TA_1 => 61
  | .C_SE_TB_1 => 62
  | .C_SE_TC_1 => 63
  | .C_BO_TA_1 => 64
  | .M_EI_NA_1 => 70
  | .C_IC_NA_1 => 100
  | .C_CI_NA_1 => 101
  | .C_RD_NA_1 => 102
  | .C_CS_NA_1 => 103
  | .C_TS_TA_1 => 107

/-- The mnemonic of a type. -/
def name : TypeId → String
  | .M_SP_NA_1 => "M_SP_NA_1"
  | .M_DP_NA_1 => "M_DP_NA_1"
  | .M_ST_NA_1 => "M_ST_NA_1"
  | .M_BO_NA_1 => "M_BO_NA_1"
  | .M_ME_NA_1 => "M_ME_NA_1"
  | .M_ME_NB_1 => "M_ME_NB_1"
  | .M_ME_NC_1 => "M_ME_NC_1"
  | .M_IT_NA_1 => "M_IT_NA_1"
  | .M_PS_NA_1 => "M_PS_NA_1"
  | .M_ME_ND_1 => "M_ME_ND_1"
  | .M_SP_TB_1 => "M_SP_TB_1"
  | .M_DP_TB_1 => "M_DP_TB_1"
  | .M_ST_TB_1 => "M_ST_TB_1"
  | .M_BO_TB_1 => "M_BO_TB_1"
  | .M_ME_TD_1 => "M_ME_TD_1"
  | .M_ME_TE_1 => "M_ME_TE_1"
  | .M_ME_TF_1 => "M_ME_TF_1"
  | .M_IT_TB_1 => "M_IT_TB_1"
  | .M_EP_TD_1 => "M_EP_TD_1"
  | .M_EP_TE_1 => "M_EP_TE_1"
  | .M_EP_TF_1 => "M_EP_TF_1"
  | .C_SC_NA_1 => "C_SC_NA_1"
  | .C_DC_NA_1 => "C_DC_NA_1"
  | .C_RC_NA_1 => "C_RC_NA_1"
  | .C_SE_NA_1 => "C_SE_NA_1"
  | .C_SE_NB_1 => "C_SE_NB_1"
  | .C_SE_NC_1 => "C_SE_NC_1"
  | .C_BO_NA_1 => "C_BO_NA_1"
  | .C_SC_TA_1 => "C_SC_TA_1"
  | .C_DC_TA_1 => "C_DC_TA_1"
  | .C_RC_TA_1 => "C_RC_TA_1"
  | .C_SE_TA_1 => "C_SE_TA_1"
  | .C_SE_TB_1 => "C_SE_TB_1"
  | .C_SE_TC_1 => "C_SE_TC_1"
  | .C_BO_TA_1 => "C_BO_TA_1"
  | .M_EI_NA_1 => "M_EI_NA_1"
  | .C_IC_NA_1 => "C_IC_NA_1"
  | .C_CI_NA_1 => "C_CI_NA_1"
  | .C_RD_NA_1 => "C_RD_NA_1"
  | .C_CS_NA_1 => "C_CS_NA_1"
  | .C_TS_TA_1 => "C_TS_TA_1"

/-- The type of a code, if the code is in use. -/
def ofCode? (c : UInt8) : Option TypeId := all.find? fun t => t.code == c

/-- The type of a mnemonic. -/
def ofName? (s : String) : Option TypeId := all.find? fun t => t.name == s

/-- The list of types has every type. -/
theorem mem_all (t : TypeId) : t ∈ all := by cases t <;> decide

/-- No two types have one code. -/
theorem code_injective {s t : TypeId} (h : s.code = t.code) : s = t := by
  have key : ∀ a ∈ all, ∀ b ∈ all, a.code = b.code → a = b := by decide
  exact key s (mem_all s) t (mem_all t) h

/-- A type is found by its code. -/
@[simp] theorem ofCode?_code (t : TypeId) : ofCode? t.code = some t := by
  cases t <;> rfl

/-- Whatever a code finds has that code. -/
theorem code_of_ofCode? {c : UInt8} {t : TypeId} (h : ofCode? c = some t) : t.code = c := by
  simpa using List.find?_some h

/-- Types are ordered by their codes. -/
instance : Ranked TypeId where
  rank t := t.code.toNat
  rank_injective h := code_injective (UInt8.toNat_inj.mp h)

/-! ## Classes of types -/

/-- Process information in monitor direction. -/
def isMonitoring (t : TypeId) : Bool := t.code ≤ 41

/-- Process information in control direction: the commands. -/
def isCommand (t : TypeId) : Bool := 45 ≤ t.code && t.code ≤ 64

/-- Bitstring commands. -/
def isBitstringCommand : TypeId → Bool
  | .C_BO_NA_1 | .C_BO_TA_1 => true
  | _ => false

/-- The commands that may be selected before they are executed: all but the bitstrings. -/
def isSelectable (t : TypeId) : Bool := t.isCommand && !t.isBitstringCommand

/-- Integrated totals. -/
def isCounter : TypeId → Bool
  | .M_IT_NA_1 | .M_IT_TB_1 => true
  | _ => false

/-- Events of protection equipment. -/
def isProtectionEvent : TypeId → Bool
  | .M_EP_TD_1 | .M_EP_TE_1 | .M_EP_TF_1 => true
  | _ => false

/-- The monitoring types that a read command and a station interrogation answer. -/
def isReadable (t : TypeId) : Bool := t.isMonitoring && !t.isCounter && !t.isProtectionEvent

/-- The types a point of a station can have. -/
def isPointType (t : TypeId) : Bool := t.isMonitoring || t.isCommand

/-- The types whose objects carry a seven-octet time tag. -/
def hasTimeTag : TypeId → Bool
  | .M_SP_TB_1 | .M_DP_TB_1 | .M_ST_TB_1 | .M_BO_TB_1 | .M_ME_TD_1 | .M_ME_TE_1 | .M_ME_TF_1
  | .M_IT_TB_1 | .M_EP_TD_1 | .M_EP_TE_1 | .M_EP_TF_1
  | .C_SC_TA_1 | .C_DC_TA_1 | .C_RC_TA_1 | .C_SE_TA_1 | .C_SE_TB_1 | .C_SE_TC_1 | .C_BO_TA_1
  | .C_CS_NA_1 | .C_TS_TA_1 => true
  | _ => false

/-- The octets of a time tag. -/
def timeTagSize : Nat := 7

/-- The octets of an information element without address and time tag. -/
def bareElementSize : TypeId → Nat
  | .M_SP_NA_1 | .M_SP_TB_1 | .M_DP_NA_1 | .M_DP_TB_1 => 1
  | .M_ST_NA_1 | .M_ST_TB_1 => 2
  | .M_BO_NA_1 | .M_BO_TB_1 => 5
  | .M_ME_NA_1 | .M_ME_TD_1 | .M_ME_NB_1 | .M_ME_TE_1 => 3
  | .M_ME_NC_1 | .M_ME_TF_1 => 5
  | .M_ME_ND_1 => 2
  | .M_IT_NA_1 | .M_IT_TB_1 => 5
  | .M_PS_NA_1 => 5
  | .M_EP_TD_1 => 3
  | .M_EP_TE_1 | .M_EP_TF_1 => 4
  | .C_SC_NA_1 | .C_SC_TA_1 | .C_DC_NA_1 | .C_DC_TA_1 | .C_RC_NA_1 | .C_RC_TA_1 => 1
  | .C_SE_NA_1 | .C_SE_TA_1 | .C_SE_NB_1 | .C_SE_TB_1 => 3
  | .C_SE_NC_1 | .C_SE_TC_1 => 5
  | .C_BO_NA_1 | .C_BO_TA_1 => 4
  | .M_EI_NA_1 | .C_IC_NA_1 | .C_CI_NA_1 => 1
  | .C_RD_NA_1 | .C_CS_NA_1 => 0
  | .C_TS_TA_1 => 2

/-- The octets of an information element, its address excluded. -/
def elementSize (t : TypeId) : Nat :=
  t.bareElementSize + if t.hasTimeTag then timeTagSize else 0

/-- No type is both a monitoring type and a command. -/
theorem isCommand_of_isMonitoring {t : TypeId} (h : t.isMonitoring = true) :
    t.isCommand = false := by
  revert h; cases t <;> decide

/-- A mnemonic names one type. -/
@[simp] theorem ofName?_name (t : TypeId) : ofName? t.name = some t := by
  cases t <;> decide

end TypeId

end Telecontrol
