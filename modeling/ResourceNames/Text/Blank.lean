/-!
# Blank characters and trimming

The blanks are the characters with the Unicode property `White_Space`.

* `trim_of_edges`: a text without blanks at its ends is its own trimming.
-/

namespace ResourceNames.Text

/-- The characters with the Unicode property `White_Space`. -/
def isBlank (c : Char) : Bool :=
  let n := c.toNat
  (0x09 ≤ n && n ≤ 0x0D) || n == 0x20 || n == 0x85 || n == 0xA0 || n == 0x1680 ||
    (0x2000 ≤ n && n ≤ 0x200A) || n == 0x2028 || n == 0x2029 || n == 0x202F || n == 0x205F ||
    n == 0x3000

/-- Without the blanks in front. -/
def trimStart (s : List Char) : List Char := s.dropWhile isBlank

/-- Without the blanks at the end. -/
def trimEnd (s : List Char) : List Char := (s.reverse.dropWhile isBlank).reverse

/-- Without the blanks at both ends. -/
def trim (s : List Char) : List Char := trimEnd (trimStart s)

/-- Nothing but blanks. -/
def allBlank (s : List Char) : Bool := s.all isBlank

theorem trimStart_of_head {s : List Char} (h : ∀ c ∈ s.head?, isBlank c = false) :
    trimStart s = s := by
  cases s with
  | nil => rfl
  | cons c r => simp [trimStart, h c (by simp)]

theorem trimEnd_of_last {s : List Char} (h : ∀ c ∈ s.getLast?, isBlank c = false) :
    trimEnd s = s := by
  have : trimStart s.reverse = s.reverse :=
    trimStart_of_head fun c hc => h c (by simpa using hc)
  rw [trimEnd, show s.reverse.dropWhile isBlank = s.reverse from this, List.reverse_reverse]

/-- A text without blanks at its ends is its own trimming. -/
theorem trim_of_edges {s : List Char} (hh : ∀ c ∈ s.head?, isBlank c = false)
    (hl : ∀ c ∈ s.getLast?, isBlank c = false) : trim s = s := by
  rw [trim, trimStart_of_head hh, trimEnd_of_last hl]

end ResourceNames.Text
