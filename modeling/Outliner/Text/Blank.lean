/-!
# Blank characters

The characters with the Unicode property White_Space (version 15.0), and trimming them from both
ends of a text. Zero-width characters such as U+200B are not blank; the no-break space U+00A0 is.
-/

set_option autoImplicit false

namespace Outliner.Text

def blankCodes : List Nat :=
  [9, 10, 11, 12, 13, 32, 133, 160, 5760, 8192, 8193, 8194, 8195, 8196, 8197, 8198, 8199,
   8200, 8201, 8202, 8232, 8233, 8239, 8287, 12288]

def isBlank (c : Char) : Bool := blankCodes.contains c.toNat

def trimBlank (s : String) : String :=
  String.ofList ((s.toList.dropWhile isBlank).reverse.dropWhile isBlank).reverse

theorem isBlank_of_isWhitespace (c : Char) (h : c.isWhitespace = true) : isBlank c = true := by
  simp only [Char.isWhitespace, Bool.or_eq_true, decide_eq_true_eq] at h
  simp only [isBlank, blankCodes, List.contains_eq_mem, List.mem_cons, List.mem_nil_iff,
    decide_eq_true_eq]
  rcases h with ((h | h) | h) | h <;> simp [h]

end Outliner.Text
