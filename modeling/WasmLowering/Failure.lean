import WasmLowering.Text.Quoted

/-! Failures as users see them. A failure is a plain message, a failure under a
label that tells where it happened, or a report of a stage of the compiler, which
may have a cause of its own. -/

namespace WasmLowering

structure Phase where
  name : String
  deriving DecidableEq, Repr, Inhabited

namespace Phase

def input : Phase := ⟨"input"⟩
def decode : Phase := ⟨"decode"⟩
def parse : Phase := ⟨"parse"⟩
def apply : Phase := ⟨"apply"⟩
def emit : Phase := ⟨"emit"⟩
def output : Phase := ⟨"output"⟩

end Phase

structure Kind where
  name : String
  deriving DecidableEq, Repr, Inhabited

namespace Kind

def invalidData : Kind := ⟨"invalid_data"⟩
def invalidInput : Kind := ⟨"invalid_input"⟩
def unsupported : Kind := ⟨"unsupported"⟩
def internal : Kind := ⟨"internal"⟩
def notFound : Kind := ⟨"not_found"⟩
def outOfBounds : Kind := ⟨"out_of_bounds"⟩
def overflow : Kind := ⟨"overflow"⟩

def all : List Kind :=
  [invalidData, invalidInput, unsupported, internal, notFound, outOfBounds, overflow]

end Kind

inductive Failure where
  | plain (message : String)
  | within (label : String) (cause : Failure)
  | report (phase : Phase) (kind : Kind) (path : List String) (detail : String)
      (cause : Option Failure)
  deriving Repr, Inhabited

namespace Failure

/-! Reports that occur in more than one place. -/

def unsupported (phase : Phase) (what : String) : Failure :=
  .report phase .unsupported [] what none

def internal (phase : Phase) (detail : String) : Failure :=
  .report phase .internal [] detail none

def invalidData (phase : Phase) (path : List String) (detail : String) : Failure :=
  .report phase .invalidData path detail none

def invalidInput (phase : Phase) (detail : String) : Failure :=
  .report phase .invalidInput [] detail none

def notFound (phase : Phase) (what name : String) (cause : Option Failure) : Failure :=
  .report phase .notFound [] (what ++ " " ++ Text.quoted name ++ " not found") cause

def outOfBounds (phase : Phase) (path : List String) (index length : Int) : Failure :=
  .report phase .outOfBounds path
    ("index " ++ toString index ++ " out of bounds (length " ++ toString length ++ ")") none

def wrap (phase : Phase) (kind : Kind) (detail : String) (cause : Option Failure) : Failure :=
  .report phase kind [] detail cause

def parseFailed (what : String) (cause : Option Failure) : Failure :=
  .report .parse .invalidData [] ("parse " ++ what) cause

/-! Text and structure of a failure. -/

def reportText (phase : Phase) (kind : Kind) (path : List String) (detail cause : String) :
    String :=
  "[" ++ phase.name ++ "] " ++ kind.name ++
    (if path.isEmpty then "" else " at " ++ ".".intercalate path) ++
    (if detail = "" then "" else ": " ++ detail) ++ cause

def message : Failure → String
  | plain message => message
  | within label cause => label ++ ": " ++ cause.message
  | report phase kind path detail none => reportText phase kind path detail ""
  | report phase kind path detail (some cause) =>
      reportText phase kind path detail (" (caused by: " ++ cause.message ++ ")")

def cause? : Failure → Option Failure
  | plain _ => none
  | within _ cause => some cause
  | report _ _ _ _ cause => cause

def reports : Failure → List (Phase × Kind)
  | plain _ => []
  | within _ cause => cause.reports
  | report phase kind _ _ none => [(phase, kind)]
  | report phase kind _ _ (some cause) => (phase, kind) :: cause.reports

/-- Whether a report of some kind is anywhere in a failure. -/
def hasKind (failure : Failure) (kind : Kind) : Bool :=
  failure.reports.any (·.2 = kind)

def isInternal (failure : Failure) : Bool :=
  match failure.reports with
  | [] => false
  | (_, kind) :: _ => kind = .internal

/-- Whether a failure contains a report of the same phase and kind as the given
report. Nothing contains a failure that is not a report. -/
def contains (failure target : Failure) : Bool :=
  match target with
  | report phase kind .. => failure.reports.any (· = (phase, kind))
  | _ => false

end Failure

def require {error : Type} (condition : Prop) [Decidable condition] (failure : error) :
    Except error Unit :=
  if condition then .ok () else .error failure

end WasmLowering
