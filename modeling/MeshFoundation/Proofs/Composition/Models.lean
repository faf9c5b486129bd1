import Mathlib.Data.List.Forall2
import MeshFoundation.Parameter.Model
import MeshFoundation.Proofs.Composition.Grammar

/-!
# The models in the records of elements

An element lists its models as single numbers, while its record holds them in chunks, two bytes for
a model of the standard and four for one of a vendor. A chunk is also what names a model in a
request, and there it is read and written with the company of a vendor's model apart from its
identifier. The two ways to read a chunk come to the same number, at every place of every list
(`Element.Record.Lists`), and what is written for the model of a chunk is the chunk.

All of the records stand in the data as they do in `Composition.exists_records`, behind the header
and in the order of the elements.
-/

set_option autoImplicit false

namespace MeshFoundation

namespace Model

/-- The number of the model that is named by the given bytes. -/
def numberOf? (chunk : Bytes) : Option UInt32 := (ofBytes? chunk).map number

theorem numberOf?_bytes (m : Model) : numberOf? m.bytes = some m.number := by
  rw [numberOf?, ofBytes?_bytes, Option.map_some]

theorem numberOf?_ofSigModel {model : UInt32} (h : model.toNat < 65536) :
    numberOf? (Bytes.ofSigModel model) = some model := by
  have hnumber : number (.sig (UInt16.ofNat model.toNat)) = model := Bytes.toUInt32_word h
  exact (numberOf?_bytes (.sig _)).trans (congrArg some hnumber)

theorem numberOf?_ofVendorModel (model : UInt32) :
    numberOf? (Bytes.ofVendorModel model) = some model := by
  have hnumber : number (.vendor (UInt16.ofNat (model.toNat / 65536))
      (UInt16.ofNat (model.toNat % 65536))) = model := by
    rw [number, Bytes.toNat_halves, UInt32.ofNat_toNat]
  exact (numberOf?_bytes (.vendor _ _)).trans (congrArg some hnumber)

end Model

namespace Element

/-- The record of an element in pieces. -/
structure Record where
  location : UInt16
  /-- The bytes of each model of the standard. -/
  sigChunks : List Bytes
  /-- The bytes of each model of a vendor. -/
  vendorChunks : List Bytes
  length_sigChunks : sigChunks.length ≤ 255
  length_vendorChunks : vendorChunks.length ≤ 255
  length_of_mem_sigChunks : ∀ chunk ∈ sigChunks, chunk.length = 2
  length_of_mem_vendorChunks : ∀ chunk ∈ vendorChunks, chunk.length = 4

namespace Record

/-- The chunks of all models, in the order in which they stand in the record. -/
def chunks (r : Record) : List Bytes := r.sigChunks ++ r.vendorChunks

def bytes (r : Record) : Bytes :=
  Bytes.ofWord r.location ++
    [Bytes.lowByte r.sigChunks.length, Bytes.lowByte r.vendorChunks.length] ++ r.chunks.flatten

/-- An element lists the models that are named by the chunks of the record, each at its place. -/
structure Lists (r : Record) (e : Element) : Prop where
  location : e.location = r.location
  sigModels : e.sigModels.map some = r.sigChunks.map Model.numberOf?
  vendorModels : e.vendorModels.map some = r.vendorChunks.map Model.numberOf?
  models : e.models.map some = r.chunks.map Model.numberOf?
  /-- What is written for the model of a chunk is the chunk. -/
  written : ∀ chunk ∈ r.chunks, (Model.ofBytes? chunk).map Model.bytes = some chunk

end Record

variable {e : Element} {es : List Element}

namespace Recordable

/-- The record of an element in pieces, one for each model that the element lists. -/
def record (h : e.Recordable) : Record where
  location := e.location
  sigChunks := e.sigModels.map Bytes.ofSigModel
  vendorChunks := e.vendorModels.map Bytes.ofVendorModel
  length_sigChunks := by
    rw [List.length_map]
    exact h.sigCount
  length_vendorChunks := by
    rw [List.length_map]
    exact h.vendorCount
  length_of_mem_sigChunks := by
    rintro chunk hchunk
    obtain ⟨model, -, rfl⟩ := List.mem_map.mp hchunk
    rfl
  length_of_mem_vendorChunks := by
    rintro chunk hchunk
    obtain ⟨model, -, rfl⟩ := List.mem_map.mp hchunk
    rfl

theorem bytes_record (h : e.Recordable) : h.record.bytes = e.bytes := by
  simp only [record, Record.bytes, Record.chunks, Element.bytes_eq, List.length_map,
    List.flatten_append, List.flatMap_def, Bytes.ofWord, List.cons_append, List.nil_append]

theorem map_numberOf?_sigChunks (h : e.Recordable) :
    h.record.sigChunks.map Model.numberOf? = e.sigModels.map some := by
  rw [record, List.map_map]
  exact List.map_congr_left fun model hmodel => Model.numberOf?_ofSigModel (h.sigWords model hmodel)

theorem map_numberOf?_vendorChunks (h : e.Recordable) :
    h.record.vendorChunks.map Model.numberOf? = e.vendorModels.map some := by
  rw [record, List.map_map]
  exact List.map_congr_left fun model _ => Model.numberOf?_ofVendorModel model

/-- Each chunk is what is written for some model. -/
theorem exists_model_of_mem_chunks (h : e.Recordable) {chunk : Bytes}
    (hchunk : chunk ∈ h.record.chunks) : ∃ model : Model, model.bytes = chunk := by
  rcases List.mem_append.mp hchunk with hchunk | hchunk
  · obtain ⟨model, -, rfl⟩ := List.mem_map.mp hchunk
    exact ⟨.sig _, rfl⟩
  · obtain ⟨model, -, rfl⟩ := List.mem_map.mp hchunk
    exact ⟨.vendor _ _, rfl⟩

/-- The record of an element is made of chunks that name the models which the element lists. -/
theorem record_lists (h : e.Recordable) : h.record.Lists e where
  location := rfl
  sigModels := h.map_numberOf?_sigChunks.symm
  vendorModels := h.map_numberOf?_vendorChunks.symm
  models := by
    rw [Element.models, Record.chunks, List.map_append, List.map_append,
      h.map_numberOf?_sigChunks, h.map_numberOf?_vendorChunks]
  written chunk hchunk := by
    obtain ⟨model, rfl⟩ := h.exists_model_of_mem_chunks hchunk
    rw [Model.ofBytes?_bytes, Option.map_some]

end Recordable

theorem exists_records (h : ∀ e ∈ es, e.Recordable) :
    ∃ records : List Record, records.flatMap Record.bytes = es.flatMap Element.bytes ∧
      List.Forall₂ Record.Lists records es := by
  induction es with
  | nil => exact ⟨[], rfl, .nil⟩
  | cons e rest ih =>
    have he : e.Recordable := h e List.mem_cons_self
    obtain ⟨records, hrecords, hrest⟩ := ih fun f hf => h f (List.mem_cons_of_mem e hf)
    refine ⟨he.record :: records, ?_, .cons he.record_lists hrest⟩
    rw [List.flatMap_cons, List.flatMap_cons, he.bytes_record, hrecords]

end Element

namespace Composition

/-- Data from which something was read hold a record for each element, behind the header and in
the order of the elements; what remains stands behind all of them. -/
theorem exists_records {bytes : Bytes} {reading : Reading} (h : read bytes = .ok reading) :
    ∃ (header : Bytes) (records : List Element.Record) (tail : Bytes),
      bytes = header ++ records.flatMap Element.Record.bytes ++ tail ∧ header.length = 11 ∧
        tail.length = reading.remainder ∧
        List.Forall₂ Element.Record.Lists records reading.composition.elements := by
  obtain ⟨p, hp, rfl⟩ := read_eq_ok_iff.mp h
  obtain ⟨records, hrecords, hlists⟩ := Element.exists_records hp.recordable
  refine ⟨p.header, records, p.tail, ?_, rfl, rfl, hlists⟩
  rw [hrecords]
  exact hp.layout

end Composition

end MeshFoundation
