import WolframSyntax.Tree.Kind

/-!
# Localizing constructs

The constructs that bind names, each with the name it is shown by and the member name it is listed
under, and the heads that make a call such a construct.
-/

namespace WolframSyntax

/-- A construct that binds names in some of its parts; `null` stands for all that bind none. -/
inductive Construct where
  | localVariables
  | dynamicValues
  | constants
  | function
  | table
  | loop
  | sum
  | product
  | numericSum
  | numericProduct
  | integral
  | numericIntegral
  | plot
  | plot3D
  | manipulation
  | compilation
  | limit
  | setDelayed
  | ruleDelayed
  | null
  deriving DecidableEq, Repr

namespace Construct

/-- Every construct, in the order of their listing. -/
def all : List Construct :=
  [.localVariables, .dynamicValues, .constants, .function, .table, .loop, .sum, .product,
   .numericSum, .numericProduct, .integral, .numericIntegral, .plot, .plot3D, .manipulation,
   .compilation, .limit, .setDelayed, .ruleDelayed, .null]

/-- The name a construct is shown by. -/
def name : Construct → String
  | .localVariables => "Module"
  | .dynamicValues => "Block"
  | .constants => "With"
  | .function => "Function"
  | .table => "Table"
  | .loop => "Do"
  | .sum => "Sum"
  | .product => "Product"
  | .numericSum => "NSum"
  | .numericProduct => "NProduct"
  | .integral => "Integrate"
  | .numericIntegral => "NIntegrate"
  | .plot => "Plot"
  | .plot3D => "Plot3D"
  | .manipulation => "Manipulate"
  | .compilation => "Compile"
  | .limit => "Limit"
  | .setDelayed => "SetDelayed"
  | .ruleDelayed => "RuleDelayed"
  | .null => "Null"

/-- The member name of a construct. -/
def memberName : Construct → String
  | .localVariables => "MODULE"
  | .dynamicValues => "BLOCK"
  | .constants => "WITH"
  | .function => "FUNCTION"
  | .table => "TABLE"
  | .loop => "DO"
  | .sum => "SUM"
  | .product => "PRODUCT"
  | .numericSum => "NSUM"
  | .numericProduct => "NPRODUCT"
  | .integral => "INTEGRATE"
  | .numericIntegral => "NINTEGRATE"
  | .plot => "PLOT"
  | .plot3D => "PLOT3D"
  | .manipulation => "MANIPULATE"
  | .compilation => "COMPILE"
  | .limit => "LIMIT"
  | .setDelayed => "SET_DELAYED"
  | .ruleDelayed => "RULE_DELAYED"
  | .null => "NULL"

/-- The construct with the given member name. -/
def ofMemberName? (name : String) : Option Construct :=
  all.find? fun construct => construct.memberName == name

/-- Every construct is listed. -/
theorem mem_all (construct : Construct) : construct ∈ all := by
  cases construct <;> decide

/-- A construct is found by its member name. -/
theorem ofMemberName?_memberName (construct : Construct) :
    ofMemberName? construct.memberName = some construct := by
  cases construct <;> decide +kernel

/-- The construct with the given member name or shown name. -/
def ofName? (name : String) : Option Construct :=
  (ofMemberName? name).or (all.find? fun construct => construct.name == name)

/-- Whether a construct binds the variables of iterators. -/
def iterates : Construct → Bool
  | .table | .loop | .sum | .product | .numericSum | .numericProduct | .integral
  | .numericIntegral | .plot | .plot3D | .manipulation => true
  | _ => false

/-- Whether a construct binds variables that may have initial values, which are evaluated
outside. -/
def initializes : Construct → Bool
  | .localVariables | .dynamicValues | .constants => true
  | _ => false

/-- The construct of an operator form, whose patterns bind names. -/
def ofOperatorForm? : NodeKind → Option Construct
  | .setDelayed => some setDelayed
  | .ruleDelayed => some ruleDelayed
  | _ => none

end Construct

/-- Heads with the constructs their calls are. The first entry for a head counts. -/
abbrev ConstructTable := List (String × Construct)

namespace ConstructTable

/-- The heads that are known from the start. -/
def standard : ConstructTable :=
  [("Module", .localVariables), ("Block", .dynamicValues), ("With", .constants),
   ("Function", .function), ("Table", .table), ("ParallelTable", .table), ("Do", .loop),
   ("ParallelDo", .loop), ("Sum", .sum), ("Product", .product), ("NSum", .numericSum),
   ("NProduct", .numericProduct), ("Integrate", .integral), ("NIntegrate", .numericIntegral),
   ("Plot", .plot), ("ParametricPlot", .plot), ("LogPlot", .plot), ("Plot3D", .plot3D),
   ("ContourPlot", .plot3D), ("DensityPlot", .plot3D), ("Manipulate", .manipulation),
   ("Compile", .compilation), ("Limit", .limit)]

/-- The construct that a call of `head` is. -/
def constructOf (table : ConstructTable) (head : String) : Construct :=
  (table.lookup head).getD .null

end ConstructTable

end WolframSyntax
