/-!
# Complaints — a message and what lies behind it

A complaint ends a run. It is shown with the causes below it, each indented, and numbered if there
are several; where there is only one line, message and causes stand in it side by side.
-/

namespace ScriptBundler

/-- Why a run ends, and what caused that. -/
structure Complaint where
  /-- What went wrong. -/
  message : String
  /-- What lies behind it, the nearest cause first. -/
  causes : List String := []
  deriving DecidableEq

namespace Complaint

/-- A text whose first line follows a mark; the others are moved to the right. -/
def hanging (mark indent text : String) : String :=
  mark ++ ("\n" ++ indent).intercalate ((text.toList.splitOn '\n').map String.ofList)

/-- Causes, numbered from `number` on. -/
def numbered (number : Nat) : List String → List String
  | [] => []
  | cause :: causes =>
    let digits := toString number
    let mark := "".pushn ' ' (5 - digits.length) ++ digits ++ ": "
    hanging mark "       " cause :: numbered (number + 1) causes

/-- The rows for the causes. -/
def causeRows : List String → List String
  | [] => []
  | [cause] => ["", "Caused by:", hanging "    " "    " cause]
  | causes => "" :: "Caused by:" :: numbered 0 causes

/-- What is shown when a run ends with the complaint. -/
def display (complaint : Complaint) : String :=
  "\n".intercalate (("Error: " ++ complaint.message) :: causeRows complaint.causes) ++ "\n"

/-- The complaint in one line. -/
def oneLine (complaint : Complaint) : String :=
  ": ".intercalate (complaint.message :: complaint.causes)

end Complaint

end ScriptBundler
