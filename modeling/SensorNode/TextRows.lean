import SensorNode.LineStream

/-!
A text file by its rows, each with the newline that ends it; what follows the
last newline is a row too. Line editors work row by row and `fgets` reads row by
row, so the pieces a reader sees of an edited file are those of the edited rows.
-/

namespace SensorNode.TextRows

open LineStream

def rowsOf : Bytes → List Bytes
  | [] => [[]]
  | byte :: rest =>
      if byte = newline then [newline] :: rowsOf rest
      else
        match rowsOf rest with
        | [] => [[byte]]
        | row :: rows => (byte :: row) :: rows

def rowText (row : Bytes) : Bytes := row.takeWhile fun byte => byte != newline

def rowEnd (row : Bytes) : Bytes := row.dropWhile fun byte => byte != newline

/-- The bytes after the last newline. -/
def unfinished (file : Bytes) : Bytes := (rowsOf file).getLastD []

def editRow (edit : Bytes → Bytes) (row : Bytes) : Bytes := edit (rowText row) ++ rowEnd row

/-- All rows but the last end in a newline. -/
def Shaped (rows texts : List Bytes) (last : Bytes) : Prop :=
  rows = texts.map (fun text => text ++ [newline]) ++ [last] ∧
    (∀ text ∈ texts, newline ∉ text) ∧ newline ∉ last

theorem rowsOf_shaped (file : Bytes) : ∃ texts last, Shaped (rowsOf file) texts last := by
  induction file with
  | nil => exact ⟨[], [], rfl, nofun, nofun⟩
  | cons byte rest ih =>
      obtain ⟨texts, last, shape, plain, lastPlain⟩ := ih
      by_cases ends : byte = newline
      · refine ⟨[] :: texts, last, ?_, ?_, lastPlain⟩
        · simp [rowsOf, ends, shape]
        · exact List.forall_mem_cons.mpr ⟨nofun, plain⟩
      · have longer (text : Bytes) (free : newline ∉ text) : newline ∉ byte :: text := by
          simpa [Ne.symm ends] using free
        cases texts with
        | nil =>
            refine ⟨[], byte :: last, ?_, nofun, longer last lastPlain⟩
            simp [rowsOf, ends, shape]
        | cons text texts =>
            obtain ⟨head, tail⟩ := List.forall_mem_cons.mp plain
            refine ⟨(byte :: text) :: texts, last, ?_,
              List.forall_mem_cons.mpr ⟨longer text head, tail⟩, lastPlain⟩
            simp [rowsOf, ends, shape]

theorem rowsOf_line (text rest : Bytes) (plain : newline ∉ text) :
    rowsOf (text ++ newline :: rest) = (text ++ [newline]) :: rowsOf rest := by
  induction text with
  | nil => exact if_pos rfl
  | cons byte text ih =>
      have other : byte ≠ newline := fun same => plain (same ▸ List.mem_cons_self)
      have later := ih fun member => plain (List.mem_cons_of_mem byte member)
      rw [List.cons_append, rowsOf, if_neg other, later]
      rfl

theorem rowsOf_open (text : Bytes) (plain : newline ∉ text) : rowsOf text = [text] := by
  induction text with
  | nil => rfl
  | cons byte text ih =>
      have other : byte ≠ newline := fun same => plain (same ▸ List.mem_cons_self)
      have later := ih fun member => plain (List.mem_cons_of_mem byte member)
      rw [rowsOf, if_neg other, later]

theorem rowsOf_framed (texts : List Bytes) (rest : Bytes) (plain : ∀ text ∈ texts, newline ∉ text) :
    rowsOf (framed texts ++ rest) = texts.map (fun text => text ++ [newline]) ++ rowsOf rest := by
  induction texts with
  | nil => rfl
  | cons text texts ih =>
      obtain ⟨head, tail⟩ := List.forall_mem_cons.mp plain
      rw [framed_cons, List.append_assoc, List.cons_append, rowsOf_line text _ head, ih tail]
      rfl

theorem flatten_rowsOf (file : Bytes) : (rowsOf file).flatten = file := by
  induction file with
  | nil => rfl
  | cons byte rest ih =>
      obtain ⟨texts, last, shape, _⟩ := rowsOf_shaped rest
      by_cases ends : byte = newline
      · simp [rowsOf, ends, ih]
      · unfold rowsOf
        rw [if_neg ends]
        cases rows : rowsOf rest with
        | nil => simp [shape] at rows
        | cons row others =>
            rw [rows] at ih
            simpa using ih

theorem rowText_ended (text : Bytes) (plain : newline ∉ text) :
    rowText (text ++ [newline]) = text ∧ rowEnd (text ++ [newline]) = [newline] := by
  have all := bne_of_notMem plain
  unfold rowText rowEnd
  rw [List.takeWhile_append_of_pos all, List.dropWhile_append_of_pos all]
  simp

theorem rowText_open (text : Bytes) (plain : newline ∉ text) :
    rowText text = text ∧ rowEnd text = [] := by
  have all := bne_of_notMem plain
  exact ⟨List.takeWhile_eq_self_iff.mpr all, List.dropWhile_eq_nil_iff.mpr all⟩

theorem rowText_rowEnd (row : Bytes) : rowText row ++ rowEnd row = row :=
  List.takeWhile_append_dropWhile

theorem rowEnd_cases (file : Bytes) :
    ∀ row ∈ rowsOf file, rowEnd row = [] ∨ rowEnd row = [newline] := by
  obtain ⟨texts, last, shape, plain, lastPlain⟩ := rowsOf_shaped file
  rw [shape]
  intro row member
  rcases List.mem_append.mp member with ended | unended
  · obtain ⟨text, inside, rfl⟩ := List.mem_map.mp ended
    exact Or.inr (rowText_ended text (plain text inside)).2
  · rw [List.mem_singleton.mp unended]
    exact Or.inl (rowText_open last lastPlain).2

theorem rowsOf_row (file row : Bytes) (member : row ∈ rowsOf file) :
    rowsOf row = [row] ∨ rowsOf row = [row, []] := by
  have plain : newline ∉ rowText row := notMem_takeWhile newline row
  have whole := rowText_rowEnd row
  rcases rowEnd_cases file row member with unended | ended
  · rw [unended, List.append_nil] at whole
    rw [whole] at plain
    exact .inl (rowsOf_open row plain)
  · rw [ended] at whole
    have read := rowsOf_line (rowText row) [] plain
    rw [whole] at read
    exact .inr read

theorem shaped_edit (edit : Bytes → Bytes) (free : ∀ text, newline ∉ text → newline ∉ edit text)
    {rows texts : List Bytes} {last : Bytes} (shaped : Shaped rows texts last) :
    Shaped (rows.map (editRow edit)) (texts.map edit) (edit last) := by
  obtain ⟨rfl, plain, lastPlain⟩ := shaped
  refine ⟨?_, ?_, free last lastPlain⟩
  · have ended : ∀ text ∈ texts, editRow edit (text ++ [newline]) = edit text ++ [newline] := by
      intro text member
      obtain ⟨same, ending⟩ := rowText_ended text (plain text member)
      rw [editRow, same, ending]
    have unended : editRow edit last = edit last := by
      obtain ⟨same, ending⟩ := rowText_open last lastPlain
      rw [editRow, same, ending, List.append_nil]
    simp only [List.map_append, List.map_map, List.map_cons, List.map_nil, unended]
    congr 1
    exact List.map_congr_left ended
  · intro text member
    obtain ⟨original, inside, rfl⟩ := List.mem_map.mp member
    exact free original (plain original inside)

theorem split_last (marked : Bytes → Bool) (rows : List Bytes) (present : rows.any marked = true) :
    ∃ front row, rows = front ++ row :: (rows.reverse.takeWhile fun row => !marked row).reverse ∧
      marked row = true := by
  have joined := List.takeWhile_append_dropWhile (p := fun row => !marked row) (l := rows.reverse)
  have head := List.head?_dropWhile_not (fun row => !marked row) rows.reverse
  cases rest : rows.reverse.dropWhile fun row => !marked row with
  | nil =>
      obtain ⟨row, inside, holds⟩ := List.any_eq_true.mp present
      have all := List.dropWhile_eq_nil_iff.mp rest row (List.mem_reverse.mpr inside)
      simp [holds] at all
  | cons row others =>
      rw [rest] at joined head
      refine ⟨others.reverse, row, ?_, by simpa using head⟩
      have back := congrArg List.reverse joined
      rw [List.reverse_reverse, List.reverse_append, List.reverse_cons] at back
      rw [List.append_assoc] at back
      exact back.symm

/-! ## What fgets reads of them -/

theorem linesOf_short (room : Nat) (text : Bytes) (plain : newline ∉ text) (present : text ≠ [])
    (short : text.length ≤ room) : linesOf (room + 1) text = [text] := by
  have read := fgets_front (room + 1) text [] plain (by omega)
  have nothing : ∀ more, fgets more [] = ([], []) := fun more => by cases more <;> rfl
  rw [List.append_nil, nothing, List.append_nil] at read
  rw [linesOf_step room text present, read, linesOf_nil]

/-- Reading on after a text of whole buffers is reading a new row. -/
theorem linesOf_whole (room : Nat) (text rest : Bytes) (plain : newline ∉ text)
    (whole : text.length % (room + 1) = 0) :
    linesOf (room + 1) (text ++ rest) = linesOf (room + 1) text ++ linesOf (room + 1) rest := by
  induction measured : text.length using Nat.strong_induction_on generalizing text with
  | _ size ih =>
      by_cases empty : text = []
      · subst empty
        rfl
      · have some' := List.length_pos_of_ne_nil empty
        have long : room + 1 ≤ text.length := by
          by_contra short
          rw [Nat.mod_eq_of_lt (by omega)] at whole
          omega
        have full (tail : Bytes) := fgets_full (room + 1) text tail plain long
        have alone := full []
        rw [List.append_nil, List.append_nil] at alone
        have later := ih (text.length - (room + 1)) (by omega) (text.drop (room + 1))
          (fun member => plain (List.mem_of_mem_drop member))
          (by rw [List.length_drop, ← Nat.mod_eq_sub_mod long, whole]) (List.length_drop ..)
        rw [linesOf_step room (text ++ rest) (by simp [empty]), linesOf_step room text empty,
          full rest, alone, List.cons_append, later]

theorem whole_split (room : Nat) (text : Bytes) :
    ∃ front back, text = front ++ back ∧ front.length % (room + 1) = 0 ∧ back.length ≤ room := by
  have below : (room + 1) * (text.length / (room + 1)) ≤ text.length := Nat.mul_div_le _ _
  have split := Nat.div_add_mod text.length (room + 1)
  have short : text.length % (room + 1) < room + 1 := Nat.mod_lt _ (Nat.succ_pos room)
  refine ⟨text.take ((room + 1) * (text.length / (room + 1))),
    text.drop ((room + 1) * (text.length / (room + 1))), (List.take_append_drop _ _).symm, ?_, ?_⟩
  · rw [List.length_take_of_le below, Nat.mul_mod_right]
  · rw [List.length_drop]
    omega

theorem linesOf_row (room : Nat) (text rest : Bytes) (plain : newline ∉ text) :
    linesOf (room + 1) (text ++ newline :: rest) =
      linesOf (room + 1) (text ++ [newline]) ++ linesOf (room + 1) rest := by
  obtain ⟨front, back, rfl, whole, short⟩ := whole_split room text
  have frontPlain : newline ∉ front := fun member => plain (List.mem_append_left _ member)
  have backPlain : newline ∉ back := fun member => plain (List.mem_append_right _ member)
  rw [List.append_assoc, List.append_assoc, linesOf_whole room front _ frontPlain whole,
    linesOf_whole room front _ frontPlain whole, linesOf_line room back rest backPlain short,
    linesOf_line room back [] backPlain short]
  simp

theorem linesOf_shaped (room : Nat) (rows texts : List Bytes) (last : Bytes)
    (shaped : Shaped rows texts last) :
    linesOf (room + 1) rows.flatten = rows.flatMap (linesOf (room + 1)) := by
  obtain ⟨rfl, plain, _⟩ := shaped
  induction texts with
  | nil => simp
  | cons text texts ih =>
      obtain ⟨head, tail⟩ := List.forall_mem_cons.mp plain
      simp only [List.map_cons, List.cons_append, List.flatten_cons, List.flatMap_cons,
        List.append_assoc, List.nil_append]
      rw [linesOf_row room text _ head, ih tail]

/-- What a reader sees of a file, row by row. -/
theorem linesOf_rows (room : Nat) (file : Bytes) :
    linesOf (room + 1) file = (rowsOf file).flatMap (linesOf (room + 1)) := by
  obtain ⟨texts, last, shaped⟩ := rowsOf_shaped file
  have read := linesOf_shaped room _ _ _ shaped
  rwa [flatten_rowsOf] at read

theorem linesOf_edited (room : Nat) (edit : Bytes → Bytes)
    (free : ∀ text, newline ∉ text → newline ∉ edit text) (file : Bytes) :
    linesOf (room + 1) ((rowsOf file).flatMap (editRow edit)) =
      ((rowsOf file).map (editRow edit)).flatMap (linesOf (room + 1)) := by
  obtain ⟨texts, last, shaped⟩ := rowsOf_shaped file
  exact linesOf_shaped room _ _ _ (shaped_edit edit free shaped)

theorem linesOf_appended (room : Nat) (file more : Bytes)
    (whole : (unfinished file).length % (room + 1) = 0) :
    linesOf (room + 1) (file ++ more) = linesOf (room + 1) file ++ linesOf (room + 1) more := by
  obtain ⟨texts, last, shape, plain, lastPlain⟩ := rowsOf_shaped file
  have lastIs : unfinished file = last := by
    rw [unfinished, shape]
    simp
  rw [lastIs] at whole
  have joined := flatten_rowsOf file
  rw [shape] at joined
  rw [← joined]
  clear shape joined lastIs
  induction texts with
  | nil => simpa using linesOf_whole room last more lastPlain whole
  | cons text texts ih =>
      obtain ⟨head, tail⟩ := List.forall_mem_cons.mp plain
      have later := ih tail
      simp only [List.map_cons, List.cons_append, List.flatten_cons, List.append_assoc,
        List.nil_append]
      rw [linesOf_row room text _ head, later, linesOf_row room text
        (texts.map (fun text => text ++ [newline]) ++ [last]).flatten head, List.append_assoc]

end SensorNode.TextRows
