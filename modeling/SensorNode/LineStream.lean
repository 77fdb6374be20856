import Mathlib.Data.List.Basic
import Mathlib.Data.List.TakeWhile

/-!
Byte text as C code sees it: NUL-terminated strings in a buffer, and the lines
that repeated `fgets` calls read from a stream. `room` is one less than the
buffer size, the most bytes one call stores. A line longer than that comes back
in pieces, so `linesOf` splits at newlines and at the buffer limit.
-/

namespace SensorNode.LineStream

abbrev Bytes := List UInt8

instance : LawfulBEq Bytes := inferInstance

def ascii (text : String) : Bytes := text.toList.map fun char => UInt8.ofNat char.toNat

def newline : UInt8 := 10
def nul : UInt8 := 0

/-- The C string held by a buffer: its bytes before the first NUL. -/
def cstring (buffer : Bytes) : Bytes := buffer.takeWhile fun byte => byte != nul

/-- The C string left after `line[strcspn(line, "\n")] = '\0'`. -/
def chomp (line : Bytes) : Bytes :=
  line.takeWhile fun byte => byte != newline && byte != nul

/-- One `fgets` call: the bytes stored, through the first newline if it comes
in time, and the stream after them. No byte stored is the NULL return. -/
def fgets : Nat → Bytes → Bytes × Bytes
  | 0, stream => ([], stream)
  | _ + 1, [] => ([], [])
  | room + 1, byte :: stream =>
      -- The newline is stored too, and nothing is read past it.
      if byte = newline then ([byte], stream)
      else (byte :: (fgets room stream).1, (fgets room stream).2)

def readLines (room : Nat) : Nat → Bytes → List Bytes
  | 0, _ => []
  | fuel + 1, stream =>
      match fgets room stream with
      | ([], _) => []
      | (line, rest) => line :: readLines room fuel rest

/-- What `while (fgets(line, room + 1, stream))` sees, call by call. -/
def linesOf (room : Nat) (stream : Bytes) : List Bytes :=
  readLines room stream.length stream

theorem fgets_append (room : Nat) (stream : Bytes) :
    (fgets room stream).1 ++ (fgets room stream).2 = stream := by
  induction room generalizing stream with
  | zero => simp [fgets]
  | succ room ih =>
      cases stream with
      | nil => rfl
      | cons byte rest =>
          by_cases last : byte = newline
          · simp [fgets, last]
          · simpa [fgets, last] using ih rest

theorem fgets_nonempty (room : Nat) (byte : UInt8) (rest : Bytes) :
    (fgets (room + 1) (byte :: rest)).1 ≠ [] := by
  by_cases last : byte = newline <;> simp [fgets, last]

theorem readLines_step (room fuel : Nat) (byte : UInt8) (rest : Bytes) :
    readLines (room + 1) (fuel + 1) (byte :: rest) =
      (fgets (room + 1) (byte :: rest)).1 ::
        readLines (room + 1) fuel (fgets (room + 1) (byte :: rest)).2 := by
  have stored := fgets_nonempty room byte rest
  rw [readLines]
  split
  · next empty => simp [empty] at stored
  · next line tail _ found => simp [found]

theorem fgets_rest_length (room : Nat) (byte : UInt8) (rest : Bytes) :
    (fgets (room + 1) (byte :: rest)).2.length ≤ rest.length := by
  have parts := congrArg List.length (fgets_append (room + 1) (byte :: rest))
  have stored := List.length_pos_of_ne_nil (fgets_nonempty room byte rest)
  simp only [List.length_append, List.length_cons] at parts
  omega

theorem readLines_enough (room fuel extra : Nat) (stream : Bytes)
    (enough : stream.length ≤ fuel) :
    readLines (room + 1) (fuel + extra) stream = readLines (room + 1) fuel stream := by
  induction fuel generalizing stream with
  | zero =>
      cases stream with
      | nil => cases extra <;> simp [readLines, fgets]
      | cons byte rest => simp at enough
  | succ fuel ih =>
      cases stream with
      | nil => simp [Nat.add_right_comm, readLines, fgets]
      | cons byte rest =>
          have shorter := fgets_rest_length room byte rest
          simp only [List.length_cons] at enough
          rw [Nat.add_right_comm, readLines_step, readLines_step, ih _ (by omega)]

@[simp] theorem linesOf_nil (room : Nat) : linesOf room [] = [] := rfl

theorem linesOf_cons (room : Nat) (byte : UInt8) (rest : Bytes) :
    linesOf (room + 1) (byte :: rest) =
      (fgets (room + 1) (byte :: rest)).1 ::
        linesOf (room + 1) (fgets (room + 1) (byte :: rest)).2 := by
  have shorter := fgets_rest_length room byte rest
  have spare : rest.length = (fgets (room + 1) (byte :: rest)).2.length +
      (rest.length - (fgets (room + 1) (byte :: rest)).2.length) := by omega
  rw [linesOf, List.length_cons, readLines_step, spare, readLines_enough _ _ _ _ (Nat.le_refl _)]
  rfl

theorem linesOf_step (room : Nat) (stream : Bytes) (present : stream ≠ []) :
    linesOf (room + 1) stream =
      (fgets (room + 1) stream).1 :: linesOf (room + 1) (fgets (room + 1) stream).2 := by
  cases stream with
  | nil => exact absurd rfl present
  | cons byte rest => exact linesOf_cons room byte rest

/-- Reading a stream to its end: each rule below is proved along the calls. -/
theorem stream_induction (room : Nat) (motive : Bytes → Prop) (nil : motive [])
    (line : ∀ stream, stream ≠ [] → motive (fgets (room + 1) stream).2 → motive stream)
    (stream : Bytes) : motive stream := by
  induction measured : stream.length using Nat.strong_induction_on generalizing stream with
  | _ size ih =>
      cases stream with
      | nil => exact nil
      | cons byte rest =>
          have shorter := fgets_rest_length room byte rest
          simp only [List.length_cons] at measured
          exact line _ (List.cons_ne_nil byte rest) (ih _ (by omega) _ rfl)

theorem linesOf_flatten (room : Nat) (stream : Bytes) :
    (linesOf (room + 1) stream).flatten = stream := by
  induction stream using stream_induction room with
  | nil => rfl
  | line stream present ih =>
      rw [linesOf_step room stream present, List.flatten_cons, ih, fgets_append]

theorem linesOf_nonempty (room : Nat) (stream : Bytes) :
    ∀ line ∈ linesOf (room + 1) stream, line ≠ [] := by
  induction stream using stream_induction room with
  | nil => simp
  | line stream present ih =>
      intro line member
      rw [linesOf_step room stream present] at member
      rcases List.mem_cons.mp member with first | later
      · subst line
        cases stream with
        | nil => exact absurd rfl present
        | cons byte rest => exact fgets_nonempty room byte rest
      · exact ih line later

theorem fgets_front (room : Nat) (front rest : Bytes) (plain : newline ∉ front)
    (fits : front.length ≤ room) :
    fgets room (front ++ rest) =
      (front ++ (fgets (room - front.length) rest).1, (fgets (room - front.length) rest).2) := by
  induction front generalizing room with
  | nil => simp
  | cons byte front ih =>
      cases room with
      | zero => simp at fits
      | succ room =>
          have first : byte ≠ newline := fun same => plain (same ▸ List.mem_cons_self)
          have tail := ih room (fun member => plain (List.mem_cons_of_mem byte member))
            (by simpa using fits)
          simp [fgets, first, tail]

theorem fgets_line (room : Nat) (text rest : Bytes) (plain : newline ∉ text)
    (fits : text.length < room) :
    fgets room (text ++ newline :: rest) = (text ++ [newline], rest) := by
  obtain ⟨left, size⟩ : ∃ left, room - text.length = left + 1 :=
    ⟨room - text.length - 1, by omega⟩
  have ending : fgets (left + 1) (newline :: rest) = ([newline], rest) := if_pos rfl
  rw [fgets_front room text _ plain fits.le, size, ending]

theorem fgets_full (room : Nat) (text rest : Bytes) (plain : newline ∉ text)
    (long : room ≤ text.length) :
    fgets room (text ++ rest) = (text.take room, text.drop room ++ rest) := by
  have size : (text.take room).length = room := List.length_take_of_le long
  have front := fgets_front room (text.take room) (text.drop room ++ rest)
    (fun member => plain (List.mem_of_mem_take member)) size.le
  rw [← List.append_assoc, List.take_append_drop, size, Nat.sub_self] at front
  rw [front, fgets, List.append_nil]

theorem linesOf_line (room : Nat) (text rest : Bytes) (plain : newline ∉ text)
    (fits : text.length ≤ room) :
    linesOf (room + 1) (text ++ newline :: rest) =
      (text ++ [newline]) :: linesOf (room + 1) rest := by
  rw [linesOf_step room _ (by simp), fgets_line (room + 1) text rest plain (by omega)]

/-- One call stops at a newline, at the end of the stream, or at a full buffer. -/
theorem fgets_cases (room : Nat) (stream : Bytes) :
    (∃ text, newline ∉ text ∧ text.length < room ∧
      (fgets room stream).1 = text ++ [newline]) ∨
    (newline ∉ (fgets room stream).1 ∧
      ((fgets room stream).2 = [] ∨ (fgets room stream).1.length = room)) := by
  induction room generalizing stream with
  | zero => simp [fgets]
  | succ room ih =>
      cases stream with
      | nil => simp [fgets]
      | cons byte rest =>
          by_cases last : byte = newline
          · left
            exact ⟨[], by simp, by simp, by simp [fgets, last]⟩
          · rcases ih rest with ⟨text, plain, short, same⟩ | ⟨plain, stop⟩
            · left
              refine ⟨byte :: text, ?_, by simpa using short, by simp [fgets, last, same]⟩
              simpa [Ne.symm last] using plain
            · right
              simp only [fgets, last, ↓reduceIte]
              exact ⟨by simpa [Ne.symm last] using plain, by simpa using stop⟩

theorem chomp_append (text rest : Bytes) (plain : newline ∉ text) (whole : nul ∉ text) :
    chomp (text ++ rest) = text ++ chomp rest := by
  rw [chomp, List.takeWhile_append_of_pos]
  · rfl
  · intro byte member
    have notNewline : byte ≠ newline := fun same => plain (same ▸ member)
    have notNul : byte ≠ nul := fun same => whole (same ▸ member)
    simp [notNewline, notNul]

theorem chomp_line (text : Bytes) (plain : newline ∉ text) (whole : nul ∉ text) :
    chomp (text ++ [newline]) = text := by
  rw [chomp_append text _ plain whole]
  simp [chomp]

theorem chomp_self (text : Bytes) (plain : newline ∉ text) (whole : nul ∉ text) :
    chomp text = text := by
  have same := chomp_append text [] plain whole
  simpa [chomp] using same

theorem chomp_clean (line : Bytes) : newline ∉ chomp line ∧ nul ∉ chomp line := by
  constructor <;> intro member <;> simpa using List.mem_takeWhile_imp member

theorem bne_of_notMem {stop : UInt8} {text : Bytes} (free : stop ∉ text) :
    ∀ byte ∈ text, (byte != stop) = true :=
  fun _ member => bne_iff_ne.mpr fun same => free (same ▸ member)

theorem notMem_takeWhile (stop : UInt8) (text : Bytes) :
    stop ∉ text.takeWhile fun byte => byte != stop := by
  intro member
  simpa using List.mem_takeWhile_imp member

theorem cstring_self (text : Bytes) (whole : nul ∉ text) : cstring text = text :=
  List.takeWhile_eq_self_iff.mpr (bne_of_notMem whole)

theorem nul_notMem_cstring (buffer : Bytes) : nul ∉ cstring buffer := notMem_takeWhile nul buffer

theorem cstring_sublist (buffer : Bytes) : List.Sublist (cstring buffer) buffer :=
  (List.takeWhile_prefix _).sublist

/-- Lines copied one by one are the stream again, up to embedded NULs. -/
theorem flatMap_cstring (room : Nat) (stream : Bytes) (whole : nul ∉ stream) :
    (linesOf (room + 1) stream).flatMap cstring = stream := by
  have lines : ∀ line ∈ linesOf (room + 1) stream, cstring line = id line := by
    intro line member
    apply cstring_self
    intro inside
    exact whole (linesOf_flatten room stream ▸ List.mem_flatten.mpr ⟨line, member, inside⟩)
  rw [List.flatMap_congr lines, List.flatMap_id, linesOf_flatten]

/-- The file form of a list of texts, each on a line of its own. -/
def framed (texts : List Bytes) : Bytes := texts.flatMap fun text => text ++ [newline]

@[simp] theorem framed_nil : framed [] = [] := rfl

theorem framed_cons (text : Bytes) (texts : List Bytes) :
    framed (text :: texts) = text ++ newline :: framed texts := by
  simp [framed]

theorem framed_append (left right : List Bytes) :
    framed (left ++ right) = framed left ++ framed right := by
  simp [framed]

theorem linesOf_framed (room : Nat) (texts : List Bytes) (rest : Bytes)
    (carried : ∀ text ∈ texts, newline ∉ text ∧ text.length ≤ room) :
    linesOf (room + 1) (framed texts ++ rest) =
      texts.map (fun text => text ++ [newline]) ++ linesOf (room + 1) rest := by
  induction texts with
  | nil => rfl
  | cons text texts ih =>
      have head := carried text List.mem_cons_self
      have tail := ih fun other member => carried other (List.mem_cons_of_mem text member)
      rw [framed_cons, List.append_assoc, List.cons_append,
        linesOf_line room text _ head.1 head.2, tail]
      rfl

end SensorNode.LineStream
