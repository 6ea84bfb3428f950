import Masthead.Proofs.Source.Newlines
import Masthead.Proofs.Workspace.Writing

/-! Reading source files and writing them. A file is the same again after its text has been written
back exactly where its line breaks are all of one kind, and a text without carriage returns is read
as it was written. -/

namespace Masthead

namespace Act
variable {p : Path} {w w' : Workspace} {place : Tree.Place} {raw s : Text} {b : Bool}

theorem LeadsTo.readRaw_encode (h : LeadsTo p w place (Utf8.encode raw) b) :
    Act.readRaw p w = (.ok raw, w) :=
  readRaw_eq_ok_iff.mpr h.readBytes

theorem LeadsTo.readSource (h : LeadsTo p w place (Utf8.encode raw) b) :
    Act.readSource p w = (.ok (Source.read raw), w) := by
  rw [Act.readSource, bind_of_ok _ h.readRaw_encode]
  rfl

theorem readSource_writeSource (hs : '\r' ∉ s) (newline : Newline)
    (hstart : Tree.Stands w.tree (start p w)) (h : writeSource p s newline w = (.ok (), w')) :
    readSource p w' = (.ok ⟨s, if '\n' ∈ s then newline else .lf, false⟩, w') := by
  obtain ⟨place, tree, haims, -, hwritten⟩ := written_of_writeText hstart h
  obtain ⟨b, hleads⟩ := haims.written hwritten
  rw [hleads.readSource, Source.read_write hs]

theorem writeSource_readSource (h : (readRaw p w).1 = .ok raw) :
    readSource p w = (.ok (Source.read raw), w) ∧
      ∃ w', writeSource p (Source.read raw).text (Source.read raw).newline w = (.ok (), w') ∧
        ((readRaw p w').1 = .ok raw ↔ (Source.read raw).mixed = false) := by
  obtain ⟨place, b, hleads⟩ := exists_leadsTo_of_readRaw h
  obtain ⟨tree, hwrite, hleads'⟩ :=
    hleads.writeBytes (Utf8.encode (Source.write (Source.read raw).text (Source.read raw).newline))
  refine ⟨hleads.readSource, _, hwrite, ?_⟩
  rw [hleads'.readRaw_encode, ← Source.write_read_iff]
  exact ⟨Except.ok.inj, congrArg Except.ok⟩

end Act

namespace Source
open Act

/-- A text that is read and written back is the same exactly where its line breaks were of one kind,
and no carriage return is left while it is worked on; a text without them is read as it was written,
with its line breaks if it has any. It is so for texts and for files. -/
theorem newlines_round_trip (raw s : Text) (newline : Newline) (hs : '\r' ∉ s) :
    (write (read raw).text (read raw).newline = raw ↔ (read raw).mixed = false) ∧
      '\r' ∉ (read raw).text ∧
      read (write s newline) = ⟨s, if '\n' ∈ s then newline else .lf, false⟩ ∧
      ∀ p w,
        ((readRaw p w).1 = .ok raw →
          readSource p w = (.ok (read raw), w) ∧
            ∃ w', writeSource p (read raw).text (read raw).newline w = (.ok (), w') ∧
              ((readRaw p w').1 = .ok raw ↔ (read raw).mixed = false)) ∧
        ∀ w', Tree.Stands w.tree (start p w) → writeSource p s newline w = (.ok (), w') →
          readSource p w' = (.ok ⟨s, if '\n' ∈ s then newline else .lf, false⟩, w') :=
  ⟨write_read_iff raw, return_not_mem_normalize raw, read_write hs newline,
    fun _ _ => ⟨writeSource_readSource, fun _ => readSource_writeSource hs newline⟩⟩

section Examples

def paired : Text := "x\r\ny\r\n".toList

def pairedFile : Path := ⟨[], ["x.ts".toList]⟩

def pairedFolder : Workspace where
  tree := .dir [("x.ts".toList, .file (Utf8.encode paired) false)]
  cwd := []
  year := 2025
  git := fun _ _ => .unavailable

theorem leadsTo_pairedFile :
    LeadsTo pairedFile pairedFolder pairedFile.parts (Utf8.encode paired) false := by
  have hway : pairedFolder.tree.follow Tree.linkLimit [] pairedFile.parts =
      .ok pairedFile.parts := by
    rw [pairedFile, Tree.follow, if_neg (by decide), if_neg (by decide)]
    rfl
  refine Aims.leadsTo ⟨by decide, by decide, hway⟩ ?_
  rfl

theorem newlines_round_trip_paired :
    '\r' ∉ "y\n\nz".toList ∧
      read (write "y\n\nz".toList .cr) = ⟨"y\n\nz".toList, .cr, false⟩ ∧
      readSource pairedFile pairedFolder = (.ok (read paired), pairedFolder) ∧
      (∃ w', writeSource pairedFile (read paired).text (read paired).newline pairedFolder =
        (.ok (), w') ∧
        (readRaw pairedFile w').1 = .ok paired) ∧
      ∃ w', writeSource pairedFile "y\n\nz".toList .cr pairedFolder = (.ok (), w') ∧
        readSource pairedFile w' = (.ok ⟨"y\n\nz".toList, .cr, false⟩, w') := by
  have hs : '\r' ∉ "y\n\nz".toList := by decide
  obtain ⟨-, -, hread, hfiles⟩ := newlines_round_trip paired "y\n\nz".toList .cr hs
  obtain ⟨hback, hthere⟩ := hfiles pairedFile pairedFolder
  obtain ⟨hsource, w₁, hwrite, hsame⟩ := hback (congrArg Prod.fst leadsTo_pairedFile.readRaw_encode)
  obtain ⟨tree, hwrite', -⟩ :=
    leadsTo_pairedFile.writeBytes (Utf8.encode (write "y\n\nz".toList .cr))
  exact ⟨hs, hread, hsource, ⟨w₁, hwrite, hsame.mpr (by decide)⟩, _, hwrite',
    hthere _ (.top rfl) hwrite'⟩

end Examples

end Source
end Masthead
