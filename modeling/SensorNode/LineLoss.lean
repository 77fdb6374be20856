import SensorNode.LineStream

/-!
The texts a line-structured file carries, and which of them survive a write
that did not land in full. A marked byte is a byte passed to a write together
with whether it reached the file. `Intact` scans the marks once: every byte of
a text must land, and of the newlines between two texts at least one.
-/

namespace SensorNode.LineLoss

open LineStream

/-! ## The texts of a file -/

def emit (text : Bytes) : List Bytes := if text = [] then [] else [text]

def textsFrom : Bytes → Bytes → List Bytes
  | current, [] => emit current
  | current, byte :: rest =>
      if byte = newline then emit current ++ textsFrom [] rest
      else textsFrom (current ++ [byte]) rest

/-- The maximal newline-free stretches of a file, in order. -/
def textsOf (file : Bytes) : List Bytes := textsFrom [] file

def textBytes (file : Bytes) : Nat := file.countP fun byte => byte != newline

def totalLength : List Bytes → Nat
  | [] => 0
  | text :: rest => text.length + totalLength rest

@[simp] theorem textsOf_nil : textsOf [] = [] := rfl

@[simp] theorem totalLength_nil : totalLength [] = 0 := rfl

@[simp] theorem totalLength_cons (text : Bytes) (texts : List Bytes) :
    totalLength (text :: texts) = text.length + totalLength texts := rfl

@[simp] theorem totalLength_append (left right : List Bytes) :
    totalLength (left ++ right) = totalLength left + totalLength right := by
  induction left with
  | nil => exact (Nat.zero_add _).symm
  | cons text rest ih =>
      rw [List.cons_append, totalLength_cons, totalLength_cons, ih, Nat.add_assoc]

theorem totalLength_sublist (left right : List Bytes) (sublist : List.Sublist left right) :
    totalLength left ≤ totalLength right := by
  induction sublist with
  | slnil => exact Nat.le_refl 0
  | @cons left right text _ ih => exact ih.trans (Nat.le_add_left _ _)
  | @cons_cons left right text _ ih => exact Nat.add_le_add_left ih _

theorem emit_total (text : Bytes) : totalLength (emit text) = text.length := by
  unfold emit
  split
  · next empty => simp [empty]
  · simp

theorem emit_present (text : Bytes) (present : text ≠ []) : emit text = [text] := if_neg present

theorem textsFrom_total (current file : Bytes) :
    totalLength (textsFrom current file) = current.length + textBytes file := by
  induction file generalizing current with
  | nil => exact emit_total current
  | cons byte rest ih =>
      by_cases last : byte = newline
      · simp [textsFrom, last, ih, emit_total, textBytes]
      · simp only [textsFrom, last, ↓reduceIte, ih, textBytes, List.length_append,
          List.length_singleton, List.countP_cons, bne_iff_ne, ne_eq, not_false_eq_true]
        omega

theorem textsOf_total (file : Bytes) : totalLength (textsOf file) = textBytes file := by
  rw [textsOf, textsFrom_total]
  exact Nat.zero_add _

theorem textBytes_append (left right : Bytes) :
    textBytes (left ++ right) = textBytes left + textBytes right := List.countP_append

theorem textBytes_newline (rest : Bytes) : textBytes (newline :: rest) = textBytes rest := by
  simp [textBytes]

theorem textBytes_plain (text : Bytes) (plain : newline ∉ text) :
    textBytes text = text.length :=
  List.countP_eq_length.mpr (bne_of_notMem plain)

theorem textsFrom_present (current file : Bytes) : ∀ text ∈ textsFrom current file, text ≠ [] := by
  have emitted (current : Bytes) : ∀ text ∈ emit current, text ≠ [] := by
    intro text member
    unfold emit at member
    split at member
    · cases member
    · next present => exact List.mem_singleton.mp member ▸ present
  induction file generalizing current with
  | nil => exact emitted current
  | cons byte rest ih =>
      intro text member
      rw [textsFrom] at member
      split at member
      · rcases List.mem_append.mp member with first | later
        · exact emitted current text first
        · exact ih [] text later
      · exact ih _ text member

theorem mem_textsFrom (current file : Bytes) (byte : UInt8) (ordinary : byte ≠ newline) :
    (∃ text ∈ textsFrom current file, byte ∈ text) ↔ byte ∈ current ∨ byte ∈ file := by
  have emitted (current : Bytes) : (∃ text ∈ emit current, byte ∈ text) ↔ byte ∈ current := by
    unfold emit
    split
    · next empty => simp [empty]
    · simp
  induction file generalizing current with
  | nil => simpa [textsFrom] using emitted current
  | cons first rest ih =>
      by_cases last : first = newline
      · simp only [textsFrom, last, ↓reduceIte, List.mem_append, List.mem_cons, ordinary, false_or,
          or_and_right, exists_or, emitted, ih, List.not_mem_nil]
      · simp only [textsFrom, last, ↓reduceIte, ih, List.mem_append, List.mem_cons,
          List.not_mem_nil, or_false, or_assoc]

theorem textsFrom_head (current file : Bytes) (present : current ≠ []) :
    ∃ more others, textsFrom current file = (current ++ more) :: others := by
  induction file generalizing current with
  | nil => exact ⟨[], [], by simp [textsFrom, emit_present current present]⟩
  | cons byte rest ih =>
      by_cases last : byte = newline
      · exact ⟨[], textsFrom [] rest, by simp [textsFrom, last, emit_present current present]⟩
      · obtain ⟨more, others, same⟩ := ih (current ++ [byte]) (by simp)
        exact ⟨byte :: more, others, by simpa [textsFrom, last] using same⟩

theorem textsFrom_append (current text rest : Bytes) (plain : newline ∉ text) :
    textsFrom current (text ++ rest) = textsFrom (current ++ text) rest := by
  induction text generalizing current with
  | nil => simp
  | cons byte text ih =>
      have first : byte ≠ newline := fun same => plain (same ▸ List.mem_cons_self)
      rw [List.cons_append, textsFrom, if_neg first,
        ih _ fun member => plain (List.mem_cons_of_mem byte member), List.append_assoc,
        List.singleton_append]

theorem textsOf_line (text rest : Bytes) (plain : newline ∉ text) :
    textsOf (text ++ newline :: rest) = emit text ++ textsOf rest := by
  rw [textsOf, textsFrom_append [] text _ plain]
  simp [textsFrom, textsOf]

theorem textsOf_last (text : Bytes) (plain : newline ∉ text) : textsOf text = emit text := by
  have whole := textsFrom_append [] text [] plain
  rwa [List.append_nil, List.nil_append] at whole

theorem sublist_total (left right : List Bytes) (sublist : List.Sublist left right)
    (present : ∀ text ∈ right, text ≠ []) (enough : totalLength right ≤ totalLength left) :
    left = right := by
  induction sublist with
  | slnil => rfl
  | @cons left right text within _ =>
      have size := List.length_pos_of_ne_nil (present text List.mem_cons_self)
      have smaller := totalLength_sublist left right within
      rw [totalLength_cons] at enough
      omega
  | @cons_cons left right text _ ih =>
      rw [totalLength_cons, totalLength_cons] at enough
      rw [ih (fun other member => present other (List.mem_cons_of_mem text member)) (by omega)]

/-! ## Writes that land in part -/

abbrev Marked := List (UInt8 × Bool)

/-- Mark the bytes of a write by position in the stream they are part of. -/
def mark (lands : Nat → Bool) : Nat → Bytes → Marked
  | _, [] => []
  | start, byte :: rest => (byte, lands start) :: mark lands (start + 1) rest

def written (marked : Marked) : Bytes := marked.map Prod.fst

def landed (marked : Marked) : Bytes := (marked.filter Prod.snd).map Prod.fst

/-- Where the scan stands: at a line start, inside a text, or behind a text
whose newlines have all been lost so far. -/
inductive Position where
  | fresh
  | inside
  | pending
  deriving DecidableEq

def Position.lost : Position → Position
  | .fresh => .fresh
  | .inside | .pending => .pending

def Intact : Position → Marked → Prop
  | _, [] => True
  | position, (byte, lands) :: rest =>
      if byte = newline then Intact (if lands then .fresh else position.lost) rest
      else lands = true ∧ position ≠ .pending ∧ Intact .inside rest

instance (position : Position) (marked : Marked) : Decidable (Intact position marked) := by
  induction marked generalizing position with
  | nil => exact isTrue trivial
  | cons first rest ih =>
      obtain ⟨byte, lands⟩ := first
      unfold Intact
      infer_instance

theorem mark_append (lands : Nat → Bool) (start : Nat) (left right : Bytes) :
    mark lands start (left ++ right) =
      mark lands start left ++ mark lands (start + left.length) right := by
  induction left generalizing start with
  | nil => rfl
  | cons byte rest ih =>
      rw [List.cons_append, mark, ih, mark, List.cons_append, List.length_cons, Nat.add_assoc,
        Nat.add_comm 1]

@[simp] theorem mark_length (lands : Nat → Bool) (start : Nat) (bytes : Bytes) :
    (mark lands start bytes).length = bytes.length := by
  induction bytes generalizing start with
  | nil => rfl
  | cons byte rest ih => simp [mark, ih]

@[simp] theorem written_mark (lands : Nat → Bool) (start : Nat) (bytes : Bytes) :
    written (mark lands start bytes) = bytes := by
  induction bytes generalizing start with
  | nil => rfl
  | cons byte rest ih => exact congrArg (byte :: ·) (ih (start + 1))

@[simp] theorem landed_mark_all (start : Nat) (bytes : Bytes) :
    landed (mark (fun _ => true) start bytes) = bytes := by
  induction bytes generalizing start with
  | nil => rfl
  | cons byte rest ih => exact congrArg (byte :: ·) (ih (start + 1))

theorem landed_sublist (marked : Marked) : List.Sublist (landed marked) (written marked) :=
  List.filter_sublist.map Prod.fst

/-- The file holds all that was written exactly when every byte landed. -/
theorem landed_mark_iff (lands : Nat → Bool) (start : Nat) (bytes : Bytes) :
    landed (mark lands start bytes) = bytes ↔
      ∀ offset < bytes.length, lands (start + offset) = true := by
  induction bytes generalizing start with
  | nil => simp [mark, landed]
  | cons byte rest ih =>
      have short := (landed_sublist (mark lands (start + 1) rest)).length_le
      rw [written_mark] at short
      have shifted : (∀ offset < (byte :: rest).length, lands (start + offset) = true) ↔
          lands start = true ∧ ∀ offset < rest.length, lands (start + 1 + offset) = true := by
        constructor
        · intro all
          refine ⟨all 0 (by simp), fun offset within => ?_⟩
          have next := all (offset + 1) (by simpa using within)
          rwa [Nat.add_comm offset, ← Nat.add_assoc] at next
        · rintro ⟨first, later⟩ offset within
          cases offset with
          | zero => exact first
          | succ offset =>
              have next := later offset (by simpa using within)
              rwa [Nat.add_assoc, Nat.add_comm 1] at next
      rw [shifted, ← ih (start + 1)]
      cases first : lands start with
      | true => simp [mark, landed, first]
      | false =>
          constructor
          · intro same
            have lengths := congrArg List.length same
            simp only [mark, first, landed, List.filter_cons_of_neg, Bool.false_eq_true,
              not_false_eq_true, List.length_cons] at lengths short
            omega
          · rintro ⟨yes, _⟩
            cases yes

/-- How many of `count` bytes from `start` on are lost. -/
def lost (lands : Nat → Bool) (start count : Nat) : Nat :=
  (List.range' start count).countP fun offset => !lands offset

theorem lost_succ (lands : Nat → Bool) (start count : Nat) :
    lost lands start (count + 1) =
      lost lands (start + 1) count + if lands start then 0 else 1 := by
  rw [lost, List.range'_succ, List.countP_cons, lost]
  cases lands start <;> rfl

theorem lost_le (lands : Nat → Bool) (start count : Nat) : lost lands start count ≤ count := by
  have size := List.countP_le_length (p := fun offset => !lands offset)
    (l := List.range' start count)
  rwa [List.length_range'] at size

theorem lost_mono (lands : Nat → Bool) (start : Nat) {fewer more : Nat} (le : fewer ≤ more) :
    lost lands start fewer ≤ lost lands start more :=
  (List.range'_sublist_right.mpr le).countP_le

/-- A write leaves `target` behind exactly when it loses what is too much, and every byte
that lands is the one due at its place. -/
theorem landed_mark_spells (lands : Nat → Bool) (start : Nat) (bytes target : Bytes) :
    landed (mark lands start bytes) = target ↔
      target.length + lost lands start bytes.length = bytes.length ∧
        ∀ offset < bytes.length, lands (start + offset) = true →
          bytes[offset]? = target[offset - lost lands start offset]? := by
  -- By induction on the bytes: one that is lost moves the target against the rest.
  induction bytes generalizing start target with
  | nil =>
      rw [List.length_nil, lost, List.range'_zero, List.countP_nil, Nat.add_zero,
        List.length_eq_zero_iff, mark]
      exact ⟨fun empty => ⟨empty.symm, nofun⟩, fun both => both.1.symm⟩
  | cons byte rest ih =>
      simp only [List.length_cons, Nat.forall_lt_succ_left, lost_succ, Nat.add_zero, mark,
        ← Nat.add_assoc, Nat.add_right_comm start _ 1]
      cases first : lands start with
      | false =>
          have kept : landed ((byte, false) :: mark lands (start + 1) rest) =
              landed (mark lands (start + 1) rest) := rfl
          rw [kept, ih (start + 1) target]
          simp
      | true =>
          have kept : landed ((byte, true) :: mark lands (start + 1) rest) =
              byte :: landed (mark lands (start + 1) rest) := rfl
          rw [kept]
          have few := lost_le lands (start + 1) rest.length
          cases target with
          | nil =>
              refine iff_of_false nofun fun both => ?_
              have size := both.1
              rw [List.length_nil, if_pos rfl] at size
              omega
          | cons due target =>
              have later (offset : Nat) :
                  (due :: target)[offset + 1 - lost lands (start + 1) offset]? =
                    target[offset - lost lands (start + 1) offset]? := by
                rw [Nat.sub_add_comm (lost_le lands (start + 1) offset), List.getElem?_cons_succ]
              rw [List.cons.injEq, ih (start + 1) target]
              simp only [if_true, Nat.add_zero, List.length_cons, List.getElem?_cons_zero,
                List.getElem?_cons_succ, later, Nat.zero_sub, Option.some.injEq, true_implies,
                Nat.add_right_comm target.length 1, Nat.add_right_cancel_iff]
              exact and_left_comm

theorem landed_textBytes (marked : Marked) :
    textBytes (landed marked) ≤ textBytes (written marked) :=
  (landed_sublist marked).countP_le

section
variable (byte : UInt8) (lands : Bool) (rest : Marked)

theorem written_cons : written ((byte, lands) :: rest) = byte :: written rest := rfl

theorem landed_cons_true : landed ((byte, true) :: rest) = byte :: landed rest := rfl

theorem landed_cons_false : landed ((byte, false) :: rest) = landed rest := rfl

end

/-- A lost text byte cannot be made up for. -/
theorem texts_short (current : Bytes) (rest : Marked) (left right : List Bytes)
    (leftTotal : totalLength left ≤ current.length + textBytes (landed rest))
    (rightTotal : totalLength right = current.length + 1 + textBytes (written rest)) :
    left ≠ right := by
  intro same
  have fewer := landed_textBytes rest
  rw [same] at leftTotal
  omega

mutual

theorem textsFrom_landed (marked : Marked) (current : Bytes) :
    textsFrom current (landed marked) = textsFrom current (written marked) ↔
      Intact (if current = [] then .fresh else .inside) marked := by
  cases marked with
  | nil => simp [Intact, landed, written]
  | cons first rest =>
      obtain ⟨byte, lands⟩ := first
      by_cases last : byte = newline
      · subst last
        cases lands with
        | true =>
            have tail := textsFrom_landed rest []
            simpa [landed_cons_true, written_cons, textsFrom, Intact] using tail
        | false =>
            by_cases empty : current = []
            · have tail := textsFrom_landed rest []
              simpa [landed_cons_false, written_cons, textsFrom, Intact, empty, emit,
                Position.lost] using tail
            · have tail := textsFrom_pending rest current empty
              simpa [landed_cons_false, written_cons, textsFrom, Intact, empty, emit,
                Position.lost] using tail
      · cases lands with
        | true =>
            have tail := textsFrom_landed rest (current ++ [byte])
            have started : (if current = [] then Position.fresh else .inside) ≠ .pending := by
              split <;> decide
            simpa [landed_cons_true, written_cons, textsFrom, Intact, last, started] using tail
        | false =>
            have different := texts_short current rest
              (textsFrom current (landed rest)) (textsFrom (current ++ [byte]) (written rest))
              (textsFrom_total _ _).le (by rw [textsFrom_total]; simp)
            simpa [landed_cons_false, written_cons, textsFrom, Intact, last] using different

theorem textsFrom_pending (marked : Marked) (current : Bytes) (present : current ≠ []) :
    textsFrom current (landed marked) = current :: textsFrom [] (written marked) ↔
      Intact .pending marked := by
  cases marked with
  | nil => simp [Intact, landed, written, textsFrom, emit, present]
  | cons first rest =>
      obtain ⟨byte, lands⟩ := first
      by_cases last : byte = newline
      · subst last
        cases lands with
        | true =>
            have tail := textsFrom_landed rest []
            simpa [landed_cons_true, written_cons, textsFrom, Intact, emit, present] using tail
        | false =>
            have tail := textsFrom_pending rest current present
            simpa [landed_cons_false, written_cons, textsFrom, Intact, emit,
              Position.lost] using tail
      · have broken : ¬ Intact .pending ((byte, lands) :: rest) := by simp [Intact, last]
        refine iff_of_false ?_ broken
        cases lands with
        | true =>
            obtain ⟨more, others, grown⟩ :=
              textsFrom_head (current ++ [byte]) (landed rest) (by simp)
            rw [landed_cons_true, textsFrom, if_neg last, grown]
            intro same
            have heads := congrArg List.length (List.cons.inj same).1
            simp only [List.length_append, List.length_singleton] at heads
            omega
        | false =>
            rw [landed_cons_false]
            apply texts_short current rest _ _ (textsFrom_total _ _).le
            rw [totalLength_cons, written_cons, textsFrom, if_neg last, textsFrom_total]
            simp [Nat.add_assoc]

end

/-- Every text survives, whole and in order, exactly when the scan passes. -/
theorem texts_survive_iff (marked : Marked) :
    List.Sublist (textsOf (written marked)) (textsOf (landed marked)) ↔
      Intact .fresh marked := by
  have exact := textsFrom_landed marked []
  rw [if_pos rfl] at exact
  rw [← exact]
  constructor
  · intro kept
    refine (sublist_total _ _ kept (textsFrom_present [] _) ?_).symm
    rw [textsOf, textsOf, textsFrom_total, textsFrom_total]
    exact Nat.add_le_add_left (landed_textBytes marked) _
  · intro same
    rw [textsOf, textsOf, same]

end SensorNode.LineLoss
