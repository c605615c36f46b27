namespace ApiClient.Text

def isBlank (c : Char) : Bool :=
  let n := c.toNat
  (0x9 ≤ n && n ≤ 0xD) || n == 0x20 || n == 0x85 || n == 0xA0 || n == 0x1680 ||
    (0x2000 ≤ n && n ≤ 0x200A) || n == 0x2028 || n == 0x2029 || n == 0x202F || n == 0x205F ||
    n == 0x3000

def trimStart (cs : List Char) : List Char :=
  cs.dropWhile isBlank

def trimEnd (cs : List Char) : List Char :=
  (cs.reverse.dropWhile isBlank).reverse

def trim (cs : List Char) : List Char :=
  trimEnd (trimStart cs)

theorem length_trim_le (cs : List Char) : (trim cs).length ≤ cs.length := by
  have h (l : List Char) : (l.dropWhile isBlank).length ≤ l.length :=
    (List.dropWhile_suffix isBlank).length_le
  have h1 := h cs
  have h2 := h (trimStart cs).reverse
  simp only [trim, trimEnd, List.length_reverse] at *
  exact Nat.le_trans h2 h1

def isBlankText (s : String) : Bool :=
  s.toList.all isBlank

def trimText (s : String) : String :=
  String.ofList (trim s.toList)

end ApiClient.Text
