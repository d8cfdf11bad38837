import Curriculum.Number.Numeral
import Curriculum.Number.Shortest
import Curriculum.Requirement.Clauses

/-! The settings of the service. Each comes from a variable of the environment; one that is missing or no
    number keeps its default, and a number below the least useful one is raised to it. -/

namespace Curriculum

/-- The integer in a variable, raised to the least one; none where there is no integer. -/
def integerSetting? (least : Int) (raw : Option String) : Option Int :=
  match Numeral.integer (raw.getD "") with
  | .ok n => some (max least n)
  | .error _ => none

/-- The binary64 number in a variable, raised to the least one; none where there is no number. -/
def doubleSetting? (least : Double) (raw : Option String) : Option Double :=
  (Numeral.double? (raw.getD "")).map least.atLeast

/-- How many requirements the service remembers, the cap on clauses, and the milliseconds from which a
    request counts as slow. -/
structure Settings where
  memorySize : Int
  cap : Option Int
  slowAfter : Double

namespace Settings

def ofEnvironment (named? : String → Option String) : Settings where
  memorySize := (integerSetting? 1 (named? "EXPRESSION_CACHE_SIZE")).getD 512
  cap := clauseCap (integerSetting? 0 (named? "GROUPING_MAX_CLAUSES"))
  slowAfter := (doubleSetting? .zero (named? "SLOW_REQUEST_LOG_MS")).getD (.ofInt 750)

def announcement (s : Settings) : String :=
  "[INFO] Expression cache size=" ++ toString s.memorySize ++ " grouping clause cap=" ++
    match s.cap with
    | some limit => toString limit
    | none => "none"

end Settings
end Curriculum
