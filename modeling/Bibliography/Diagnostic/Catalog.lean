set_option autoImplicit false

/-! # The catalog of codes

Every code that a diagnostic can carry, with the part of the program it belongs to, its title,
its usual message and, for the codes that users can act on, the page that documents it. -/

namespace Bibliography

/-- What is known of a code. -/
structure CodeInfo where
  subsystem : String
  title : String
  message : String
  docsUrl : Option String
  /-- The version that introduced the code. -/
  since : String
  deriving DecidableEq, Repr

namespace Catalog

/-- The entry of a code; `documented` tells whether it has a page. -/
def entry (code subsystem title message : String) (documented : Bool) : String × CodeInfo :=
  (code, ⟨subsystem, title, message,
    if documented then some ("https://bibcraft.dev/errors/" ++ code) else none, "0.1.0"⟩)

def entries : List (String × CodeInfo) :=
  [entry "B-0-1" "internal" "Internal Error" "An unexpected internal error occurred" false,
   entry "B-1-1" "text" "Invalid Case Mode" "change.case$ mode must start with l, u or t" true,
   entry "B-1-2" "text" "Invalid Substring Start" "substring$ start position must not be zero" true,
   entry "B-1-3" "text" "Unmatched Braces" "Output text has unbalanced braces" true,
   entry "B-2-1" "database" "Database Syntax Error"
      "The bibliography database could not be parsed" true,
   entry "B-2-2" "database" "Duplicate Entry Key" "Two database entries share the same key" true,
   entry "B-2-3" "database" "Invalid Name" "A personal name could not be decomposed" true,
   entry "B-2-4" "database" "Database Read Error"
      "A bibliography database file could not be read" false,
   entry "B-3-1" "bst-parse" "Style Syntax Error" "The style program is malformed" true,
   entry "B-3-2" "bst-parse" "Invalid Integer Literal"
      "Integer literals must look like #123 or #-4" true,
   entry "B-3-3" "bst-parse" "Unknown Command" "The style program uses an unknown command" true,
   entry "B-3-4" "bst-parse" "Wrong Argument Count"
      "A command was given the wrong number of arguments" true,
   entry "B-3-5" "bst-parse" "Invalid Name Format" "A name format pattern is malformed" true,
   entry "B-4-1" "bst-runtime" "Stack Underflow" "A built-in popped from an empty stack" true,
   entry "B-4-2" "bst-runtime" "Undefined Identifier"
      "An identifier was used before being declared" true,
   entry "B-4-3" "bst-runtime" "Duplicate Declaration" "A name was declared twice" true,
   entry "B-4-4" "bst-runtime" "Type Mismatch" "A built-in received a value of the wrong type" true,
   entry "B-4-5" "bst-runtime" "No Current Entry"
      "An entry-scoped operation ran outside entry iteration" true,
   entry "B-4-6" "bst-runtime" "No Handler For Entry Type"
      "call.type$ found no function for the entry type" true,
   entry "B-4-7" "bst-runtime" "Invalid Assignment" "The target of := cannot be assigned" true,
   entry "B-4-8" "bst-runtime" "Invalid Argument"
      "A built-in received an argument outside its domain" true,
   entry "B-4-9" "bst-runtime" "Command Out Of Order"
      "A command appeared where it is not allowed" true,
   entry "B-4-10" "bst-runtime" "Output Error" "Formatted output could not be written" false,
   entry "B-4-11" "bst-runtime" "Style Warning" "The style program issued a warning" false,
   entry "B-4-12" "bst-runtime" "Missing Database Entry" "A cited key has no database entry" false,
   entry "B-4-13" "bst-runtime" "Stack Dump" "Values printed by top$ or stack$" false,
   entry "B-4-14" "bst-runtime" "Recursion Too Deep"
      "Style functions called each other too deeply" false,
   entry "B-5-1" "cli" "Invalid Aux File" "The .aux file lacks required commands" true,
   entry "B-5-2" "cli" "Style Not Found"
      "The style named by \\bibstyle could not be found or read" false]

def info? (code : String) : Option CodeInfo := entries.lookup code

def docsUrl? (code : String) : Option String := (info? code).bind (·.docsUrl)

def subsystem? (code : String) : Option String := (info? code).map (·.subsystem)

end Catalog

end Bibliography
