import EchoLog.Command.Run
import EchoLog.Proofs.Service.Writers
/-!
# Arguments over a configuration file

What the arguments give takes the place of what the file gives, so two files that differ only there come
to the same settings (`Arguments.Covers.override_eq`).  They need not load alike, though: a file is checked
on its own before anything in it is replaced.  Of the values that arguments can replace, the check sees
only whether the bind address and the data file are empty (`Settings.check_eq_of_covers`), so that is all
that a replaced value can still decide.
-/

namespace EchoLog

namespace Settings

/-- What reading a configuration file gave is a document of these settings. -/
def Denotes (content : Except IoError Bytes) (s : Settings) : Prop :=
  ∃ bytes text, content = .ok bytes ∧ ofUtf8? bytes = some text ∧ ofText text = .ok s

/-- The same of the texts that must not be empty are empty. -/
structure AlikeNamed (s t : Settings) : Prop where
  bind : s.server.bindAddress = "" ↔ t.server.bindAddress = ""
  dataFile : s.storage.dataFile = "" ↔ t.storage.dataFile = ""

/-- Accepted settings have a bind address and a data file. -/
theorem named_of_check {s : Settings} (h : s.check = .ok ()) :
    s.server.bindAddress ≠ "" ∧ s.storage.dataFile ≠ "" := by
  simp only [check, demand_then_ok, Bool.not_eq_true', ← Bool.not_eq_true,
    String.isEmpty_iff] at h
  obtain ⟨hbind, -, -, hfile, -⟩ := h
  exact ⟨hbind, hfile⟩

theorem ofFile_of_denotes {content : Except IoError Bytes} {s : Settings} (h : Denotes content s) :
    ofFile content = (do s.check; return s) := by
  obtain ⟨bytes, text, rfl, htext, hs⟩ := h
  simp only [ofFile, htext, hs]
  rfl

end Settings

namespace Command

open Settings

variable {a : Arguments} {s t : Settings}

namespace Arguments

/-- Two settings differ at most in what the arguments give. -/
structure Covers (a : Arguments) (s t : Settings) : Prop where
  bind : a.bind = none → s.server.bindAddress = t.server.bindAddress
  port : a.port = none → s.server.port = t.server.port
  dataFile : a.dataFile = none → s.storage.dataFile = t.storage.dataFile
  server : { s.server with bindAddress := t.server.bindAddress, port := t.server.port } = t.server
  storage : { s.storage with dataFile := t.storage.dataFile } = t.storage
  framing : s.framing = t.framing
  timestamp : s.timestamp = t.timestamp
  shutdown : s.shutdown = t.shutdown
  logging : s.logging = t.logging

/-- Settings have what the arguments give. -/
structure Holds (a : Arguments) (s : Settings) : Prop where
  bind : ∀ address, a.bind = some address → s.server.bindAddress = address
  port : ∀ port, a.port = some port → s.server.port = port
  dataFile : ∀ file, a.dataFile = some file → s.storage.dataFile = file

/-- No argument is an empty text. -/
structure Named (a : Arguments) : Prop where
  bind : a.bind ≠ some ""
  dataFile : a.dataFile ≠ some ""

theorem getD_eq_of_covers {α : Type} {given : Option α} {x y : α} (h : given = none → x = y) :
    given.getD x = given.getD y := by
  cases given with
  | none => exact h rfl
  | some _ => rfl

/-- **Whatever the arguments cover is lost in the settings that they make.** -/
theorem Covers.override_eq (h : a.Covers s t) : a.override s = a.override t := by
  unfold override
  rw [getD_eq_of_covers h.bind, getD_eq_of_covers h.port, getD_eq_of_covers h.dataFile, ← h.server,
    ← h.storage, ← h.framing, ← h.timestamp, ← h.shutdown, ← h.logging]

theorem covers_override (a : Arguments) (s : Settings) : a.Covers s (a.override s) where
  bind h := by rw [override, h]; rfl
  port h := by rw [override, h]; rfl
  dataFile h := by rw [override, h]; rfl
  server := rfl
  storage := rfl
  framing := rfl
  timestamp := rfl
  shutdown := rfl
  logging := rfl

theorem holds_override (a : Arguments) (s : Settings) : a.Holds (a.override s) where
  bind address h := by rw [override, h]; rfl
  port port h := by rw [override, h]; rfl
  dataFile file h := by rw [override, h]; rfl

end Arguments

/-- **The check sees of a covered value only whether it is empty.** -/
theorem check_eq_of_covers (h : a.Covers s t) (halike : AlikeNamed s t) : s.check = t.check := by
  have hbind : s.server.bindAddress.isEmpty = t.server.bindAddress.isEmpty := by
    rw [Bool.eq_iff_iff, String.isEmpty_iff, String.isEmpty_iff]
    exact halike.bind
  have hfile : s.storage.dataFile.isEmpty = t.storage.dataFile.isEmpty := by
    rw [Bool.eq_iff_iff, String.isEmpty_iff, String.isEmpty_iff]
    exact halike.dataFile
  have hslots : s.server.maxConnections = t.server.maxConnections := by rw [← h.server]
  have hchunk : s.server.chunkSize = t.server.chunkSize := by rw [← h.server]
  unfold check
  rw [hbind, hfile, hslots, hchunk, h.framing, h.timestamp, h.logging]

/-- Arguments that are not empty spoil no accepted settings. -/
theorem check_override (hnamed : a.Named) (h : s.check = .ok ()) : (a.override s).check = .ok () := by
  obtain ⟨hbind, hfile⟩ := named_of_check h
  rw [← check_eq_of_covers (a.covers_override s), h]
  refine ⟨iff_of_false hbind ?_, iff_of_false hfile ?_⟩
  · rw [Arguments.override]
    cases hgiven : a.bind with
    | none => exact hbind
    | some address => exact fun hempty => hnamed.bind (hgiven.trans (congrArg some hempty))
  · rw [Arguments.override]
    cases hgiven : a.dataFile with
    | none => exact hfile
    | some file => exact fun hempty => hnamed.dataFile (hgiven.trans (congrArg some hempty))

/-! ## Loading -/

variable {f g : Except IoError Bytes}

theorem loadSettings_of_denotes (h : Denotes f s) :
    loadSettings a (some f) =
      (do s.check; (a.override s).check; return a.override s : Except ConfigFault Settings) := by
  simp only [loadSettings, ofFile_of_denotes h]
  cases s.check <;> rfl

/-- **When a file is loaded**: it passes the check by itself, and so do the settings that the arguments
make of it. -/
theorem loadSettings_eq_ok_iff (h : Denotes f s) {c : Settings} :
    loadSettings a (some f) = .ok c ↔
      s.check = .ok () ∧ c.check = .ok () ∧ c = a.override s := by
  rw [loadSettings_of_denotes h]
  cases s.check with
  | error fault => exact ⟨nofun, fun h => nomatch h.1⟩
  | ok u =>
      cases hmade : (a.override s).check with
      | error fault =>
          refine ⟨nofun, ?_⟩
          rintro ⟨-, hc, rfl⟩
          cases hmade.symm.trans hc
      | ok u =>
          constructor
          · intro hload
            cases hload
            exact ⟨rfl, hmade, rfl⟩
          · rintro ⟨-, -, rfl⟩
            rfl

/-- **What a replaced value can still decide.**  Two files that differ at most in what the arguments give
load alike, be it to a failure, if the same of the texts that must not be empty are empty in them.  With
arguments that are not empty they load alike exactly when each has the same fault by itself, or none.  If
one of them is loaded, the other is exactly when it has a bind address and a data file, however these are
replaced; the settings are accepted, have what the arguments give, and else what the file gives. -/
theorem replaced_value_decides_only_if_empty (hf : Denotes f s) (hg : Denotes g t)
    (h : a.Covers s t) :
    (AlikeNamed s t → loadSettings a (some f) = loadSettings a (some g)) ∧
      (a.Named → (loadSettings a (some f) = loadSettings a (some g) ↔ s.check = t.check)) ∧
      ∀ c, loadSettings a (some f) = .ok c →
        c.check = .ok () ∧ a.Holds c ∧ a.Covers s c ∧
          (loadSettings a (some g) = .ok c ↔
            t.server.bindAddress ≠ "" ∧ t.storage.dataFile ≠ "") := by
  have hsame : s.check = t.check → loadSettings a (some f) = loadSettings a (some g) := by
    intro hcheck
    rw [loadSettings_of_denotes hf, loadSettings_of_denotes hg, hcheck, h.override_eq]
  refine ⟨fun halike => hsame (check_eq_of_covers h halike), ?_, ?_⟩
  · refine fun hnamed => ⟨?_, hsame⟩
    -- a fault of one file alone is none of the settings that the arguments make
    have hspoils := fun {s : Settings} => check_override (s := s) hnamed
    rw [loadSettings_of_denotes hf, loadSettings_of_denotes hg]
    cases hs : s.check with
    | error fault =>
        cases ht : t.check with
        | error fault' =>
            intro hload
            cases hload
            rfl
        | ok u =>
            rw [hspoils ht]
            nofun
    | ok u =>
        cases ht : t.check with
        | error fault =>
            rw [hspoils hs]
            nofun
        | ok u => exact fun _ => rfl
  · intro c hload
    obtain ⟨hs, hc, rfl⟩ := (loadSettings_eq_ok_iff hf).1 hload
    refine ⟨hc, a.holds_override s, a.covers_override s, ?_⟩
    rw [loadSettings_eq_ok_iff hg]
    constructor
    · rintro ⟨ht, -, -⟩
      exact named_of_check ht
    · rintro ⟨hbind, hfile⟩
      obtain ⟨hbind', hfile'⟩ := named_of_check hs
      have halike : AlikeNamed s t := ⟨iff_of_false hbind' hbind, iff_of_false hfile' hfile⟩
      exact ⟨(check_eq_of_covers h halike).symm.trans hs, hc, h.override_eq⟩

/-- The theorem at two files that give different bind addresses where an argument gives a third. -/
theorem replaced_value_decides_nothing_when_named :
    let a : Arguments := { bind := some "127.0.0.1", dataFile := some "log" }
    let f : Except IoError Bytes := .ok (utf8 "[server]\nbind_address = '10.0.0.1'\nbacklog = 5")
    let g : Except IoError Bytes :=
      .ok (utf8 "storage.data_file = 'elsewhere'\nserver = ['::', 9000, 128, 5]")
    let s : Settings := { server := { bindAddress := "10.0.0.1", backlog := 5 } }
    let t : Settings :=
      { server := { bindAddress := "::", backlog := 5 }, storage := { dataFile := "elsewhere" } }
    Denotes f s ∧ Denotes g t ∧ a.Covers s t ∧
      ∃ c, loadSettings a (some f) = .ok c ∧ loadSettings a (some g) = .ok c := by
  intro a f g s t
  have hf : Denotes f s :=
    ⟨_, "[server]\nbind_address = '10.0.0.1'\nbacklog = 5", rfl, by decide +kernel, by decide +kernel⟩
  have hg : Denotes g t :=
    ⟨_, "storage.data_file = 'elsewhere'\nserver = ['::', 9000, 128, 5]", rfl, by decide +kernel,
      by decide +kernel⟩
  have h : a.Covers s t := ⟨nofun, fun _ => rfl, nofun, rfl, rfl, rfl, rfl, rfl, rfl⟩
  have hload : loadSettings a (some f) = .ok (a.override s) :=
    (loadSettings_eq_ok_iff hf).2 ⟨by decide +kernel, by decide +kernel, rfl⟩
  obtain ⟨-, -, hloads⟩ := replaced_value_decides_only_if_empty hf hg h
  obtain ⟨-, -, -, hother⟩ := hloads _ hload
  exact ⟨hf, hg, h, _, hload, hother.2 ⟨by decide, by decide⟩⟩

/-- **An empty address in the file is refused although an argument replaces it**, and a file that gives
none is loaded with the same argument. -/
theorem replaced_empty_address_refused :
    let a : Arguments := { bind := some "127.0.0.1" }
    let f : Except IoError Bytes := .ok (utf8 "[server]\nbind_address=''")
    let g : Except IoError Bytes := .ok (utf8 "")
    let s : Settings := { server := { bindAddress := "" } }
    Denotes f s ∧ Denotes g {} ∧ a.Covers s {} ∧
      loadSettings a (some f) = .error .emptyBindAddress ∧
      loadSettings a (some g) = .ok { server := { bindAddress := "127.0.0.1" } } := by
  intro a f g s
  refine ⟨⟨_, "[server]\nbind_address=''", rfl, by decide +kernel, by decide +kernel⟩,
    ⟨_, "", rfl, by decide +kernel, by decide +kernel⟩, ?_, by decide +kernel, by decide +kernel⟩
  exact ⟨nofun, fun _ => rfl, fun _ => rfl, rfl, rfl, rfl, rfl, rfl, rfl⟩

end Command

end EchoLog
