import Mathlib.Data.List.Basic

/-! White space in Python's texts. -/
namespace Library
namespace PythonText

/-- `str.isspace` of a character, and the class `\s`. -/
def isSpace (c : Char) : Bool :=
  let n := c.toNat
  (9 ≤ n && n ≤ 13) || (28 ≤ n && n ≤ 32) || n = 0x85 || n = 0xa0 || n = 0x1680 ||
    (0x2000 ≤ n && n ≤ 0x200a) || n = 0x2028 || n = 0x2029 || n = 0x202f || n = 0x205f || n = 0x3000

def strip (text : List Char) : List Char :=
  ((text.dropWhile isSpace).reverse.dropWhile isSpace).reverse

theorem dropWhile_plain {text : List Char} (plain : ∀ c ∈ text, isSpace c = false) :
    text.dropWhile isSpace = text := by
  cases text with
  | nil => rfl
  | cons c text => exact List.dropWhile_cons_of_neg (by simp [plain c List.mem_cons_self])

theorem strip_plain {text : List Char} (plain : ∀ c ∈ text, isSpace c = false) :
    strip text = text := by
  have back : ∀ c ∈ text.reverse, isSpace c = false :=
    fun c member => plain c (List.mem_reverse.mp member)
  rw [strip, dropWhile_plain plain, dropWhile_plain back, List.reverse_reverse]

end PythonText
end Library
