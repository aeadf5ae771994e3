import Bibliography.Text.Table

set_option autoImplicit false

/-! # Abbreviations

Names that stand for texts in the values of a database: the months, what a style defines, and
what a database file defines for itself. Names are compared after folding to lower case. -/

namespace Bibliography

/-- Texts under the folded names that stand for them. -/
abbrev Abbreviations := Table Text

namespace Abbreviations

def define (a : Abbreviations) (name value : Text) : Abbreviations := Table.set a name.fold value

def expand? (a : Abbreviations) (name : Text) : Option Text := Table.get? a name.fold

/-- The months of the year by their first three letters. -/
def months : Abbreviations :=
  [("jan", "January"), ("feb", "February"), ("mar", "March"), ("apr", "April"), ("may", "May"),
    ("jun", "June"), ("jul", "July"), ("aug", "August"), ("sep", "September"),
    ("oct", "October"), ("nov", "November"), ("dec", "December")].map
    fun m => (m.1.toList, m.2.toList)

end Abbreviations

end Bibliography
