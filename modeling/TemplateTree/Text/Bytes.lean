namespace TemplateTree.Text

def byteLength : List Char → Nat
  | [] => 0
  | c :: rest => c.utf8Size + byteLength rest

theorem byteLength_append (left right : List Char) :
    byteLength (left ++ right) = byteLength left + byteLength right := by
  induction left with
  | nil => simp [byteLength]
  | cons c rest ih => simp [byteLength, ih, Nat.add_assoc]

theorem length_le_byteLength (s : List Char) : s.length ≤ byteLength s := by
  induction s with
  | nil => exact Nat.le_refl _
  | cons c rest ih =>
      have positive : 0 < c.utf8Size := Char.utf8Size_pos c
      simp only [byteLength, List.length_cons]
      omega

theorem utf8ByteSize_ofList (s : List Char) :
    (String.ofList s).utf8ByteSize = byteLength s := by
  induction s with
  | nil => rfl
  | cons c rest ih =>
      rw [String.ofList_cons, String.utf8ByteSize_append,
        String.utf8ByteSize_singleton, ih, byteLength]

/-- Where `mark` stands first. -/
def offset? (mark : List Char) : List Char → Option Nat
  | [] => if mark.isEmpty then some 0 else none
  | c :: rest =>
      if mark.isPrefixOf (c :: rest) then some 0
      else (offset? mark rest).map (c.utf8Size + ·)

/-- Where `c` stands last. -/
def lastOffset? (c : Char) : List Char → Option Nat
  | [] => none
  | first :: rest =>
      match lastOffset? c rest with
      | some offset => some (first.utf8Size + offset)
      | none => if first = c then some 0 else none

/-- A character starts at the offset, or the text ends there. -/
abbrev IsBoundary (s : List Char) (offset : Nat) : Prop :=
  String.Pos.Raw.IsValid (String.ofList s) ⟨offset⟩

/-- The bytes from `start` to `stop` are bytes of the text and divide no character. -/
structure IsRange (s : List Char) (start stop : Nat) : Prop where
  ordered : start ≤ stop
  inside : stop ≤ byteLength s
  atStart : IsBoundary s start
  atStop : IsBoundary s stop

theorem isRange_iff {s : List Char} {start stop : Nat} :
    IsRange s start stop ↔
      start ≤ stop ∧ stop ≤ byteLength s ∧ IsBoundary s start ∧ IsBoundary s stop :=
  ⟨fun range => ⟨range.ordered, range.inside, range.atStart, range.atStop⟩,
    fun ⟨ordered, inside, atStart, atStop⟩ => ⟨ordered, inside, atStart, atStop⟩⟩

instance (s : List Char) (start stop : Nat) : Decidable (IsRange s start stop) :=
  decidable_of_iff' _ isRange_iff

def IsRange.text {s : List Char} {start stop : Nat} (range : IsRange s start stop) :
    List Char :=
  (String.extract ⟨⟨start⟩, range.atStart⟩ ⟨⟨stop⟩, range.atStop⟩).toList

end TemplateTree.Text
