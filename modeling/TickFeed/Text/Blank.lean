/-! # Blank characters

A value may be padded with any character that has the `White_Space` property
of the Unicode standard. `trim` removes the padding on both sides. The zero
width space and the byte order mark are not blank. -/

namespace TickFeed.Text

/-- The characters with the `White_Space` property. -/
def isBlank (c : Char) : Bool :=
  let n := c.toNat
  (0x9 ≤ n && n ≤ 0xD) || n == 0x20 || n == 0x85 || n == 0xA0 || n == 0x1680 ||
    (0x2000 ≤ n && n ≤ 0x200A) || n == 0x2028 || n == 0x2029 || n == 0x202F ||
    n == 0x205F || n == 0x3000

def dropBlanks (cs : List Char) : List Char := cs.dropWhile isBlank

def trimChars (cs : List Char) : List Char :=
  (dropBlanks (dropBlanks cs).reverse).reverse

def trim (s : String) : String := String.ofList (trimChars s.toList)

/-- `s` with the letters `a` to `z` in upper case and every other character as
it is. -/
def upper (s : String) : String := String.ofList (s.toList.map Char.toUpper)

theorem dropBlanks_dropBlanks (cs : List Char) : dropBlanks (dropBlanks cs) = dropBlanks cs := by
  unfold dropBlanks
  induction cs with
  | nil => rfl
  | cons c cs ih =>
    by_cases h : isBlank c
    · simpa [h] using ih
    · simp [h]

theorem dropBlanks_append_singleton {cs : List Char} {c : Char} (h : isBlank c = false) :
    dropBlanks (cs ++ [c]) = dropBlanks cs ++ [c] := by
  unfold dropBlanks
  induction cs with
  | nil => simp [h]
  | cons d cs ih =>
    by_cases hd : isBlank d
    · simpa [hd] using ih
    · simp [hd]

/-- The first character that is left is not blank. -/
theorem isBlank_head_dropBlanks {cs rest : List Char} {c : Char} (h : dropBlanks cs = c :: rest) :
    isBlank c = false := by
  have := List.head?_dropWhile_not isBlank cs
  unfold dropBlanks at h
  rw [h] at this
  simpa using this

/-- Taking blanks off the end brings none to the front. -/
theorem dropBlanks_reverse_dropBlanks (cs : List Char) :
    dropBlanks (dropBlanks (dropBlanks cs).reverse).reverse =
      (dropBlanks (dropBlanks cs).reverse).reverse := by
  cases h : dropBlanks cs with
  | nil => rfl
  | cons c rest =>
    have hc := isBlank_head_dropBlanks h
    rw [List.reverse_cons, dropBlanks_append_singleton hc]
    simp [dropBlanks, hc]

theorem trimChars_trimChars (cs : List Char) : trimChars (trimChars cs) = trimChars cs := by
  simp only [trimChars, dropBlanks_reverse_dropBlanks, List.reverse_reverse,
    dropBlanks_dropBlanks]

@[simp] theorem trim_trim (s : String) : trim (trim s) = trim s := by
  simp [trim, trimChars_trimChars]

end TickFeed.Text
