/-!
# White space around texts

`isBlank` is the Unicode property White_Space, and `trim` drops the blanks at both ends.

    trim (blanks ++ cs ++ blanks') = trim cs               (trim_append_blanks)
-/

namespace SigningGateway

namespace Text

/-- The characters with the Unicode property White_Space. -/
def isBlank (c : Char) : Bool :=
  let n := c.toNat
  (0x9 ≤ n && n ≤ 0xd) || n == 0x20 || n == 0x85 || n == 0xa0 || n == 0x1680 ||
    (0x2000 ≤ n && n ≤ 0x200a) || n == 0x2028 || n == 0x2029 || n == 0x202f || n == 0x205f ||
    n == 0x3000

def trimStart (cs : List Char) : List Char := cs.dropWhile isBlank

def trimEnd (cs : List Char) : List Char := (cs.reverse.dropWhile isBlank).reverse

def trim (cs : List Char) : List Char := trimEnd (trimStart cs)

/-! ## Lemmas -/

theorem trimStart_append_blanks (blanks cs : List Char) (h : ∀ c ∈ blanks, isBlank c = true) :
    trimStart (blanks ++ cs) = trimStart cs :=
  List.dropWhile_append_of_pos h

theorem trimEnd_append_blanks (cs blanks : List Char) (h : ∀ c ∈ blanks, isBlank c = true) :
    trimEnd (cs ++ blanks) = trimEnd cs := by
  unfold trimEnd
  rw [List.reverse_append, List.dropWhile_append_of_pos]
  simpa using h

theorem trimStart_append_of_blank (cs blanks : List Char) (h : ∀ c ∈ blanks, isBlank c = true) :
    trimEnd (trimStart (cs ++ blanks)) = trimEnd (trimStart cs) := by
  unfold trimStart
  rw [List.dropWhile_append]
  split
  · next hempty =>
    have : cs.dropWhile isBlank = [] := by simpa using hempty
    rw [this]
    have hb : blanks.dropWhile isBlank = [] := by
      rw [← List.append_nil blanks, List.dropWhile_append_of_pos h, List.dropWhile_nil]
    rw [hb]
  · exact trimEnd_append_blanks _ _ h

theorem trim_append_blanks (front cs back : List Char) (hf : ∀ c ∈ front, isBlank c = true)
    (hb : ∀ c ∈ back, isBlank c = true) : trim (front ++ cs ++ back) = trim cs := by
  unfold trim
  rw [trimStart_append_of_blank _ _ hb, trimStart_append_blanks _ _ hf]

theorem trim_eq_self (cs : List Char) (h : ∀ c ∈ cs, isBlank c = false) : trim cs = cs := by
  have hstart : trimStart cs = cs := by
    unfold trimStart
    cases cs with
    | nil => rfl
    | cons c cs => simp [h c (by simp)]
  have hend : trimEnd cs = cs := by
    unfold trimEnd
    cases hr : cs.reverse with
    | nil => simpa using hr
    | cons c rest =>
      have hc : c ∈ cs := by
        have : c ∈ cs.reverse := by rw [hr]; simp
        simpa using this
      rw [List.dropWhile_cons, h c hc]
      simp [← hr]
  rw [trim, hstart, hend]

end Text

end SigningGateway
