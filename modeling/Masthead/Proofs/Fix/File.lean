import Masthead.Backend.Limits
import Masthead.Fix.File
import Masthead.Git
import Masthead.Proofs.Fix.Step
import Masthead.Proofs.Header.Room
import Masthead.Proofs.Source.Newlines
import Masthead.Proofs.Workspace.Files

/-! Fixing a file on disk. Only the header is written anew; the bytes behind it are those that were
there. -/

namespace Masthead

namespace Source

def bytes (source : Source) (s : Text) : List UInt8 := Utf8.encode (write s source.newline)

theorem bytes_append (source : Source) (s t : Text) :
    source.bytes (s ++ t) = source.bytes s ++ source.bytes t := by
  rw [bytes, write_append, Utf8.encode_append]
  rfl

theorem suffix_bytes (source : Source) {s t : Text} (h : s <:+ t) :
    source.bytes s <:+ source.bytes t := by
  obtain ⟨front, rfl⟩ := h
  exact ⟨source.bytes front, (bytes_append source front s).symm⟩

end Source

namespace Act
variable {p : Path} {w w' : Workspace} {source : Source}

theorem readSource_of_readBytes {bytes : List UInt8} {raw : Text}
    (hread : readBytes p w = (.ok bytes, w')) (hdecode : Utf8.decode bytes = .ok raw) :
    readSource p w = (.ok (Source.read raw), w') := by
  have hraw := readRaw_eq_ok_iff.mpr ((Utf8.encode_decode hdecode).symm ▸ hread)
  rw [readSource, bind_of_ok _ hraw]
  rfl

theorem readBytes_of_readSource (h : readSource p w = (.ok source, w'))
    (hmixed : source.mixed = false) :
    readBytes p w = (.ok (source.bytes source.text), w') := by
  obtain ⟨raw, w₁, hraw, hsource⟩ := bind_eq_ok h
  cases hsource
  rw [Source.bytes, Source.read, Source.write_normalize hmixed]
  exact readRaw_eq_ok_iff.mp hraw

end Act

namespace Fixer
open Header (parse? setOff)
open Source (splitPreamble closePreamble)

theorem exists_text_fix {f : Fixer} {past : Past} {content pre body : Text}
    (hsplit : splitPreamble content = (pre, body))
    (hmod : (f.fix past content).action.modifies = true) :
    ∃ s, (f.fix past content).text = closePreamble pre ++ (f.header past content ++ s) ∧
      match parse? f.config.dialect body with
      | some h => ∃ tail, body = h.raw ++ tail ∧ s = setOff tail
      | none => s = '\n' :: '\n' :: Text.stripLeft body := by
  rcases fix_cases f past content with ⟨hfalse, -⟩ | ⟨-, htext⟩
  · rw [hmod] at hfalse
    cases hfalse
  · rw [htext, hsplit, Source.joinPreamble]
    dsimp only
    cases hp : parse? f.config.dialect body with
    | none =>
      refine ⟨_, ?_, rfl⟩
      simp only [Header.replace, List.append_assoc, List.cons_append, List.nil_append]
    | some h =>
      obtain ⟨tail, -, hbody, hreplace⟩ := Header.replace_behind hp
      exact ⟨setOff tail, by rw [hreplace], tail, hbody, rfl⟩

end Fixer

namespace Fix
open Act (Observes)
open Header (parse? setOff)
open Source (splitPreamble closePreamble)

variable {f : Fixer} {past : Act Past} {p : Path} {shown : Text} {w w₁ : Workspace}
  {source : Source}

def ask (f : Fixer) (past : Act Past) (text : Text) : Act Past :=
  match f.current? text with
  | none => past
  | some _ => pure {}

theorem observes_ask (h : Observes past) (f : Fixer) (text : Text) :
    Observes (ask f past text) := by
  rw [ask]
  split
  · exact h
  · exact Act.observes_compositional.pure _

section
variable [Limits]

theorem file_eq (hread : Act.readSource p w = (.ok source, w)) :
    file f past p shown w =
      (do
        let past ← ask f past source.text
        Act.demandRoom (f.excess? past source.text)
        return .ofOutcome (if shown.isEmpty then p.text else shown) source
          (f.fix past source.text) : Act FileOutcome)
        w := by
  have hattempt : Act.attempt (Act.readSource p) w = (.ok (.ok source), w) := by
    rw [Act.attempt_apply, hread]
  rw [file, bind_of_ok _ hattempt]
  dsimp only [ask]
  cases f.current? source.text <;> rfl

theorem file_eq_ok {o : FileOutcome} (hread : Act.readSource p w = (.ok source, w))
    (h : file f past p shown w = (.ok o, w₁)) :
    ∃ told, ask f past source.text w = (.ok told, w₁) ∧
      o = .ofOutcome (if shown.isEmpty then p.text else shown) source (f.fix told source.text) := by
  rw [file_eq hread] at h
  obtain ⟨told, w', hask, hrest⟩ := bind_eq_ok h
  obtain ⟨_, w'', hroom, hend⟩ := bind_eq_ok hrest
  obtain ⟨-, rfl⟩ := Act.demandRoom_eq_ok hroom
  cases hend
  exact ⟨told, hask, rfl⟩

theorem file_eq_outcome {told : Past} (hread : Act.readSource p w = (.ok source, w))
    (hask : ask f past source.text w = (.ok told, w₁)) (hroom : f.config.Roomy) :
    file f past p shown w =
      (.ok (.ofOutcome (if shown.isEmpty then p.text else shown) source (f.fix told source.text)),
        w₁) := by
  rw [file_eq hread, bind_of_ok _ hask, Fixer.excess?_eq_none hroom]
  rfl

/-- On disk a fix touches only the header. The preamble stays, the new header follows it, and behind
that stand all bytes that stood behind the old header, with a line break in front where no line of
blanks sets them off. -/
theorem rest_survives {pre body : Text} {o : FileOutcome}
    (hread : Act.readSource p w = (.ok source, w)) (hmixed : source.mixed = false)
    (hsplit : splitPreamble source.text = (pre, body)) (hfix : file f past p shown w = (.ok o, w₁))
    (hmod : o.action.modifies = true) :
    ∃ told updated s put,
      ask f past source.text w = (.ok told, w₁) ∧ o.updated = some updated ∧
      put = source.bytes (closePreamble pre) ++
        (source.bytes (f.header told source.text) ++ source.bytes s) ∧
      Act.writeSource p updated o.newline = Act.writeBytes p put ∧
      (Observes past → ∃ w₂, Act.writeSource p updated o.newline w₁ = (.ok (), w₂) ∧
        Act.readBytes p w₂ = (.ok put, w₂)) ∧
      match parse? f.config.dialect body with
      | some h => ∃ tail, body = h.raw ++ tail ∧ s = setOff tail ∧
          Act.readBytes p w = (.ok (source.bytes pre ++ (source.bytes h.raw ++ source.bytes tail)),
            w) ∧
          source.bytes tail <:+ source.bytes s
      | none => s = '\n' :: '\n' :: Text.stripLeft body ∧
          Act.readBytes p w = (.ok (source.bytes pre ++ source.bytes body), w) := by
  obtain ⟨told, hask, rfl⟩ := file_eq_ok hread hfix
  obtain ⟨s, hupdated, hs⟩ := Fixer.exists_text_fix hsplit hmod
  have hput : Act.writeSource p (f.fix told source.text).text source.newline =
      Act.writeBytes p (source.bytes (closePreamble pre) ++
        (source.bytes (f.header told source.text) ++ source.bytes s)) := by
    rw [← Source.bytes_append, ← Source.bytes_append, ← hupdated]
    rfl
  have hbytes := Act.readBytes_of_readSource hread hmixed
  obtain ⟨-, place, b, hleads⟩ := Act.exists_leadsTo hbytes
  have hjoin : pre ++ body = source.text := by
    simpa only [hsplit] using Source.splitPreamble_join source.text
  rw [← hjoin, Source.bytes_append] at hbytes
  refine ⟨told, _, s, _, hask, rfl, rfl, hput, fun hpast => ?_, ?_⟩
  · have hstill := observes_ask hpast f source.text w
    rw [hask] at hstill
    have hleads₁ : Act.LeadsTo p w₁ place (source.bytes source.text) b :=
      hleads.of_tree hstill.1 hstill.2
    obtain ⟨tree, hwrite, hwritten⟩ := hleads₁.writeBytes (source.bytes (closePreamble pre) ++
      (source.bytes (f.header told source.text) ++ source.bytes s))
    exact ⟨_, (congrFun hput w₁).trans hwrite, hwritten.readBytes⟩
  · cases hp : parse? f.config.dialect body with
    | none =>
      rw [hp] at hs
      exact ⟨hs, hbytes⟩
    | some h =>
      rw [hp] at hs
      obtain ⟨tail, hbody, rfl⟩ := hs
      rw [hbody, Source.bytes_append] at hbytes
      exact ⟨tail, hbody, rfl, hbytes, source.suffix_bytes (Header.suffix_setOff tail)⟩

end

section Script
open scoped Masthead.Backend

def scriptSource : Source := ⟨Fixer.script, .crlf, false⟩

def scriptHeader : Text :=
  "#---\n# Copyright (c) 2019-2021  John Roe  john@example.com\n#---".toList

def runSh : Path := ⟨[], ["run.sh".toList]⟩

def folder : Workspace where
  tree := .dir [("run.sh".toList, .file (scriptSource.bytes Fixer.script) true)]
  cwd := []
  year := 2024
  git := fun _ _ => .unavailable

theorem readSource_runSh : Act.readSource runSh folder = (.ok scriptSource, folder) := by
  have hfollow : folder.tree.follow Tree.linkLimit [] runSh.parts = .ok runSh.parts := by
    rw [runSh, Tree.follow]
    decide +kernel
  have hleads : Act.LeadsTo runSh folder runSh.parts (scriptSource.bytes Fixer.script) true := by
    refine ⟨by decide, by decide, ?_⟩
    change (folder.tree.follow Tree.linkLimit [] runSh.parts).map _ = _
    rw [hfollow]
    rfl
  have hdecode : Utf8.decode (scriptSource.bytes Fixer.script) =
      .ok (Source.write Fixer.script .crlf) := by
    decide +kernel
  have hnewlines : Source.read (Source.write Fixer.script .crlf) = scriptSource := by decide
  rw [Act.readSource_of_readBytes hleads.readBytes hdecode, hnewlines]

theorem rest_survives_script :
    ∃ updated w₂,
      Act.writeSource runSh updated .crlf folder = (.ok (), w₂) ∧
      Act.readBytes runSh w₂ =
        (.ok (scriptSource.bytes "#!/bin/sh\n".toList ++
          (scriptSource.bytes (Fixer.shell.header {} Fixer.script) ++
            scriptSource.bytes "\n\nexit 0\n".toList)), w₂) := by
  have hask : ask Fixer.shell (Git.past .shell runSh) scriptSource.text folder =
      (.ok {}, folder) := by
    obtain ⟨h, hcurrent⟩ : ∃ h, Fixer.shell.current? scriptSource.text = some h :=
      Option.isSome_iff_exists.mp (by decide)
    rw [ask, hcurrent]
    rfl
  have hfile : file Fixer.shell (Git.past .shell runSh) runSh [] folder =
      (.ok (.ofOutcome runSh.text scriptSource (Fixer.shell.fix {} Fixer.script)), folder) :=
    file_eq_outcome readSource_runSh hask (by decide)
  have hsplit : splitPreamble scriptSource.text =
      ("#!/bin/sh\n".toList, scriptHeader ++ "\nexit 0\n".toList) := by decide
  have hparse : (parse? Fixer.shell.config.dialect (scriptHeader ++ "\nexit 0\n".toList)).map
      (·.raw) =
      some scriptHeader := by decide
  obtain ⟨h, hh, hraw⟩ := Option.map_eq_some_iff.mp hparse
  obtain ⟨told, updated, s, put, htold, -, hput, -, hwritten, hrest⟩ :=
    rest_survives readSource_runSh rfl hsplit hfile (by decide)
  obtain ⟨w₂, hwrite, hread⟩ := hwritten (Git.observes_past .shell runSh)
  obtain rfl : told = {} := by
    rw [hask] at htold
    exact (Except.ok.inj (congrArg Prod.fst htold)).symm
  rw [hh] at hrest
  obtain ⟨tail, hbody, rfl, -⟩ := hrest
  rw [hraw] at hbody
  obtain rfl := List.append_cancel_left hbody
  rw [hput] at hread
  exact ⟨updated, w₂, hwrite, hread⟩

end Script

end Fix
end Masthead
