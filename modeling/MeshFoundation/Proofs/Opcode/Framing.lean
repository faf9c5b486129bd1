import MeshFoundation.Opcode.Stream
import MeshFoundation.Proofs.Opcode.Inverse

/-!
# Streams of opcodes that are read back

Opcodes that were written one after another into one buffer are read back without separators,
because each of them is read back whatever follows it. An opcode that cannot be written adds
nothing to the buffer, so that those around it stay next to each other.

Each single opcode adds as many bytes as its width says, or none (`Opcode.writes_writeTo`). From
this follows by induction on the list what stands in the buffer behind the bytes that it had
before: exactly the opcodes that were accepted so far (`Opcode.exists_written`). The main statement
holds at every moment of the writing, not only at its end (`Opcode.stream_reads_back`).
-/

set_option autoImplicit false

namespace MeshFoundation.Opcode

/-- How one opcode is written into a buffer: with all of its bytes, or not at all. -/
structure Writes (before : Bytes) (op : Opcode) (answer : Except Fault Nat) (after : Bytes) :
    Prop where
  accepted : ∀ width, op.width? = some width → answer = .ok width ∧
    ∃ own, op.encode = .ok own ∧ own.length = width ∧ after = before ++ own
  refused : op.width? = none → answer = .error (.outOfRange op) ∧ after = before

/-- The buffer after the opcodes of a list were written into it. -/
def bufferAfter (buffer : Bytes) : List Opcode → Bytes
  | [] => buffer
  | op :: rest => bufferAfter (writeTo buffer op).1 rest

variable {op : Opcode} {own rest : Bytes} {width : Nat}

/-! ## Writing -/

theorem writeTo_of_encode (h : op.encode = .ok own) (buffer : Bytes) :
    writeTo buffer op = (buffer ++ own, .ok own.length) := by
  rw [writeTo, h]

theorem writeTo_of_width?_eq_none (h : op.width? = none) (buffer : Bytes) :
    writeTo buffer op = (buffer, .error (.outOfRange op)) := by
  rw [writeTo, encode, h]

theorem writes_writeTo (buffer : Bytes) (op : Opcode) :
    Writes buffer op (writeTo buffer op).2 (writeTo buffer op).1 where
  accepted width h := by
    obtain ⟨own, hencode, hlength⟩ := encode_of_width? h
    rw [writeTo_of_encode hencode]
    exact ⟨congrArg Except.ok hlength, own, hencode, hlength, rfl⟩
  refused h := by
    rw [writeTo_of_width?_eq_none h]
    exact ⟨rfl, rfl⟩

theorem length_writeAll (buffer : Bytes) (ops : List Opcode) :
    (writeAll buffer ops).length = ops.length := by
  induction ops generalizing buffer with
  | nil => rfl
  | cons op rest ih => simp only [writeAll, List.length_cons, ih]

theorem bufferAfter_append (buffer : Bytes) (xs ys : List Opcode) :
    bufferAfter buffer (xs ++ ys) = bufferAfter (bufferAfter buffer xs) ys := by
  induction xs generalizing buffer with
  | nil => rfl
  | cons op rest ih => exact ih (writeTo buffer op).1

theorem writeAll_append (buffer : Bytes) (xs ys : List Opcode) :
    writeAll buffer (xs ++ ys) = writeAll buffer xs ++ writeAll (bufferAfter buffer xs) ys := by
  induction xs generalizing buffer with
  | nil => rfl
  | cons op rest ih => simp only [List.cons_append, writeAll, bufferAfter, ih]

/-- The answer to an opcode, and the buffer then, depend on what stands before it in the list
through the buffer alone. -/
theorem getElem?_writeAll (buffer : Bytes) (earlier later : List Opcode) (op : Opcode) :
    (writeAll buffer (earlier ++ op :: later))[earlier.length]? =
      some ((writeTo (bufferAfter buffer earlier) op).2,
        (writeTo (bufferAfter buffer earlier) op).1) := by
  have hlength := length_writeAll buffer earlier
  rw [writeAll_append, List.getElem?_append_right (Nat.le_of_eq hlength), hlength, Nat.sub_self]
  rfl

/-! ## Reading -/

/-- After an opcode was read from its own bytes, the others are read from what follows. -/
theorem readAll_append_of_encode {ops : List Opcode} (h : op.encode = .ok own)
    (hrest : readAll rest = .ok ops) : readAll (own ++ rest) = .ok (op :: ops) := by
  have hdecode := decode_append_of_encode h rest
  have hne : own ++ rest ≠ [] := by
    intro hempty
    rw [hempty] at hdecode
    cases hdecode
  rw [readAll, if_neg hne]
  split
  · rename_i hfault
    rw [hdecode] at hfault
    cases hfault
  · rename_i hread
    rw [hdecode] at hread
    cases hread
    rw [List.drop_left, hrest]

/-- Writing leaves the bytes of the buffer as they were, and what it adds to them is read back as
the opcodes that were accepted. -/
theorem exists_written (buffer : Bytes) (ops : List Opcode) :
    ∃ written, bufferAfter buffer ops = buffer ++ written ∧
      readAll written = .ok (ops.filter fun op => op.width?.isSome) := by
  induction ops generalizing buffer with
  | nil =>
    refine ⟨[], (List.append_nil buffer).symm, ?_⟩
    rw [readAll, if_pos rfl]
    rfl
  | cons op rest ih =>
    cases hwidth : op.width? with
    | none =>
      obtain ⟨written, hbuffer, hread⟩ := ih buffer
      refine ⟨written, ?_, ?_⟩
      · rw [bufferAfter, writeTo_of_width?_eq_none hwidth, hbuffer]
      · rw [hread, List.filter_cons_of_neg (by simp [hwidth])]
    | some width =>
      obtain ⟨own, hencode, -⟩ := encode_of_width? hwidth
      obtain ⟨written, hbuffer, hread⟩ := ih (buffer ++ own)
      refine ⟨own ++ written, ?_, ?_⟩
      · rw [bufferAfter, writeTo_of_encode hencode, hbuffer, List.append_assoc]
      · rw [readAll_append_of_encode hencode hread, List.filter_cons_of_pos (by simp [hwidth])]

/-- Whatever opcodes are written one after another into whatever buffer, each gets an answer. An
opcode that has a width adds just so many bytes, its own, and any other opcode is refused by name
and adds none. At every moment the bytes that the buffer had at first stand unchanged in front, and
those behind them are read, to the last byte, as the opcodes that were accepted up to then, in their
order. -/
theorem stream_reads_back (buffer : Bytes) (ops : List Opcode) :
    (writeAll buffer ops).length = ops.length ∧
      (∀ earlier op later, ops = earlier ++ op :: later →
        ∃ answer, (writeAll buffer ops)[earlier.length]? =
            some (answer, bufferAfter buffer (earlier ++ [op])) ∧
          Writes (bufferAfter buffer earlier) op answer (bufferAfter buffer (earlier ++ [op]))) ∧
      ∀ earlier later, ops = earlier ++ later →
        ∃ written, bufferAfter buffer earlier = buffer ++ written ∧
          readAll written = .ok (earlier.filter fun op => op.width?.isSome) := by
  refine ⟨length_writeAll buffer ops, ?_, fun earlier _ _ => exists_written buffer earlier⟩
  rintro earlier op later rfl
  have hone : bufferAfter buffer (earlier ++ [op]) =
      (writeTo (bufferAfter buffer earlier) op).1 := bufferAfter_append buffer earlier [op]
  rw [getElem?_writeAll, hone]
  exact ⟨_, rfl, writes_writeTo (bufferAfter buffer earlier) op⟩

/-- An opcode that is refused stands between two of different widths. -/
theorem stream_of_refusedOpcode :
    let ops : List Opcode := [⟨0x803D⟩, ⟨0x7F⟩, ⟨0xC10203⟩]
    ops = [⟨0x803D⟩] ++ ⟨0x7F⟩ :: [⟨0xC10203⟩] ∧
      (writeAll [0xAA] ops)[1]? = some (.error (.outOfRange ⟨0x7F⟩), [0xAA, 0x80, 0x3D]) ∧
      bufferAfter [0xAA] ops = [0xAA] ++ [0x80, 0x3D, 0xC1, 0x02, 0x03] ∧
      readAll [0x80, 0x3D, 0xC1, 0x02, 0x03] = .ok [⟨0x803D⟩, ⟨0xC10203⟩] := by
  intro ops
  obtain ⟨-, hanswers, hread⟩ := stream_reads_back [0xAA] ops
  obtain ⟨answer, hanswer, hwrites⟩ := hanswers [⟨0x803D⟩] ⟨0x7F⟩ [⟨0xC10203⟩] rfl
  obtain ⟨rfl, -⟩ := hwrites.refused rfl
  have hafter : bufferAfter [0xAA] ops = [0xAA] ++ [0x80, 0x3D, 0xC1, 0x02, 0x03] := by decide
  obtain ⟨written, hbuffer, hback⟩ := hread ops [] (List.append_nil ops).symm
  obtain rfl : [0x80, 0x3D, 0xC1, 0x02, 0x03] = written :=
    List.append_cancel_left (hafter.symm.trans hbuffer)
  exact ⟨rfl, hanswer, hafter, hback⟩

end MeshFoundation.Opcode
