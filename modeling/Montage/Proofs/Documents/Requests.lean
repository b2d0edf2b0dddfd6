import Montage.Proofs.Documents.Composition

/-!
# The documents that are exchanged

Requests come in as documents, failures go out as documents, and both may be stored and read back by
other programs. Reading them does not depend on how fields with defaults are written, on the order
of fields or on fields from other versions.
-/

namespace Montage

open Json

namespace SplitScreen

def form : Form SplitScreen where
  blank := { primary := ⟨""⟩, secondary := ⟨""⟩ }
  slots :=
    [⟨"primary", true, FilePath.wire, (·.primary), fun value s ↦ { s with primary := value }⟩,
     ⟨"secondary", true, FilePath.wire, (·.secondary), fun value s ↦ { s with secondary := value }⟩,
     ⟨"primaryVolume", false, .real, (·.primaryVolume),
       fun value s ↦ { s with primaryVolume := value }⟩,
     ⟨"secondaryVolume", false, .real, (·.secondaryVolume),
       fun value s ↦ { s with secondaryVolume := value }⟩,
     ⟨"primaryDuration", false, Wire.real.option Wire.real_ne_null, (·.primaryDuration),
       fun value s ↦ { s with primaryDuration := value }⟩,
     ⟨"secondaryDuration", false, Wire.real.option Wire.real_ne_null,
       (·.secondaryDuration), fun value s ↦ { s with secondaryDuration := value }⟩,
     ⟨"primaryHasAudio", false, Wire.bool.option Wire.bool_ne_null, (·.primaryHasAudio),
       fun value s ↦ { s with primaryHasAudio := value }⟩,
     ⟨"secondaryHasAudio", false, Wire.bool.option Wire.bool_ne_null, (·.secondaryHasAudio),
       fun value s ↦ { s with secondaryHasAudio := value }⟩,
     ⟨"backgroundColor", false, .string, (·.backgroundColor),
       fun value s ↦ { s with backgroundColor := value }⟩,
     ⟨"quality", false, Quality.wire, (·.quality), fun value s ↦ { s with quality := value }⟩]
  blank_representable := by simp [FilePath.wire, Quality.wire]; decide +kernel

def wire : Wire SplitScreen :=
  form.wire Representable (by simp [representable_iff, form, FilePath.wire, Quality.wire])

theorem wire_layout : wire.layout = layout := by
  simp [wire, Form.layout, form, layout, FilePath.wire, Quality.wire, Quality.name, ofOption]

end SplitScreen

namespace RenderRequest

def form : Form RenderRequest where
  blank := { composition := { clips := [] } }
  slots :=
    [⟨"composition", true, Composition.wire, (·.composition),
       fun value r ↦ { r with composition := value }⟩,
     ⟨"clipFiles", false, FilePath.wire.list, (·.clipFiles),
       fun value r ↦ { r with clipFiles := value }⟩,
     ⟨"musicFile", false, FilePath.wire.option FilePath.wire_ne_null, (·.musicFile),
       fun value r ↦ { r with musicFile := value }⟩]
  blank_representable := by
    simp [FilePath.wire, Composition.wire, Composition.representable_of_no_clips]

def wire : Wire RenderRequest :=
  form.wire Representable (by simp [representable_iff, form, FilePath.wire, Composition.wire])

theorem wire_layout : wire.layout = layout := by
  simp [wire, Form.layout, form, layout, Composition.wire_layout, FilePath.wire, ofOption]

end RenderRequest

namespace SplitScreenRequest

def form : Form SplitScreenRequest where
  blank := { screen := { primary := ⟨""⟩, secondary := ⟨""⟩ } }
  slots :=
    [⟨"spec", true, SplitScreen.wire, (·.screen), fun value r ↦ { r with screen := value }⟩,
     ⟨"primaryFile", false, FilePath.wire.option FilePath.wire_ne_null, (·.primaryFile),
       fun value r ↦ { r with primaryFile := value }⟩,
     ⟨"secondaryFile", false, FilePath.wire.option FilePath.wire_ne_null, (·.secondaryFile),
       fun value r ↦ { r with secondaryFile := value }⟩]
  blank_representable := by
    simp [FilePath.wire, SplitScreen.wire, SplitScreen.representable_iff]
    decide +kernel

def wire : Wire SplitScreenRequest :=
  form.wire Representable (by simp [representable_iff, form, FilePath.wire, SplitScreen.wire])

theorem wire_layout : wire.layout = layout := by
  simp [wire, Form.layout, form, layout, SplitScreen.wire_layout, FilePath.wire, ofOption]

end SplitScreenRequest

def FailureKind.wire : Wire FailureKind := .choice named name fun kind ↦ by cases kind <;> rfl

namespace RenderFailure

def form : Form RenderFailure where
  blank := ⟨.internal, "", none⟩
  slots :=
    [⟨"kind", true, FailureKind.wire, (·.kind), fun value f ↦ { f with kind := value }⟩,
     ⟨"message", true, .string, (·.message), fun value f ↦ { f with message := value }⟩,
     ⟨"stderrTail", false, Wire.string.option Wire.string_ne_null, (·.diagnostics),
       fun value f ↦ { f with diagnostics := value }⟩]
  blank_representable := by simp [FailureKind.wire]

/-- Failures with all their fields. -/
def fullWire : Wire RenderFailure :=
  form.wire (fun _ ↦ True) (by simp [form, FailureKind.wire])

theorem fullWire_layout : fullWire.layout = layout := by
  simp [fullWire, Form.layout, form, layout, FailureKind.wire, ofOption]

/-- Failures without diagnostics are written without the field for them. -/
theorem changed_toJson (failure : RenderFailure) :
    Changed fullWire.layout (fullWire.encode failure) failure.toJson := by
  rw [fullWire_layout]
  cases failure with
  | mk kind message diagnostics =>
    cases diagnostics with
    | some text => exact .refl
    | none => exact .single (.remove [_, _] [] (.tail _ (.tail _ (.head _))))

def wire : Wire RenderFailure := fullWire.rewrite toJson fun failure _ ↦ changed_toJson failure

end RenderFailure

/-- Requests, what they are about, and failures are exchanged as documents without loss. -/
theorem documents_interchange :
    Interchange RenderRequest.toJson RenderRequest.decode RenderRequest.layout
        RenderRequest.Representable ∧
      Interchange SplitScreenRequest.toJson SplitScreenRequest.decode SplitScreenRequest.layout
        SplitScreenRequest.Representable ∧
      Interchange Composition.toJson Composition.decode Composition.layout
        Composition.Representable ∧
      Interchange SplitScreen.toJson SplitScreen.decode SplitScreen.layout
        SplitScreen.Representable ∧
      Interchange RenderFailure.toJson RenderFailure.decode RenderFailure.layout fun _ ↦ True := by
  rw [← RenderRequest.wire_layout, ← SplitScreenRequest.wire_layout, ← Composition.wire_layout,
    ← SplitScreen.wire_layout, ← RenderFailure.fullWire_layout]
  exact ⟨RenderRequest.wire.interchange, SplitScreenRequest.wire.interchange,
    Composition.wire.interchange, SplitScreen.wire.interchange, RenderFailure.wire.interchange⟩

/-- A composition is read from a document with a comment, with the title first and without its
style; and a quality that nobody knows is written as the one it stands for. -/
theorem documents_interchange_draft :
    Composition.decode
        (.object
          [(some "comment", .null),
           (some "title", .object [(some "text", .string "Hi"),
             (some "position", RelativePosition.toJson ⟨50, 10⟩)] true),
           (some "clips", .list []), (some "backgroundColor", .string "#000000"),
           (some "videoHeightFraction", .ofReal 0.7), (some "quality", .string "1080p"),
           (some "transition", .null), (some "ranking", .null), (some "captions", .list []),
           (some "overlays", .list []), (some "audio", .null)] true) =
        .ok { clips := [], title := some { text := "Hi" } } ∧
      Composition.toJson <$> Composition.decode
          (.object [(some "clips", .list []), (some "quality", .string "ultra")] true) =
        .ok (Composition.toJson { clips := [] }) ∧
      Composition.toJson <$> Composition.decode (Composition.toJson { clips := [] }) =
        .ok (Composition.toJson { clips := [] }) := by
  have hread : Composition.toJson <$> Composition.decode
      (.object [(some "clips", .list []), (some "quality", .string "ultra")] true) =
        .ok (Composition.toJson { clips := [] }) :=
    congrArg (Composition.toJson <$> ·)
      (by decide +kernel : Composition.decode (.object _ true) = .ok { clips := [] })
  have hvalid : Valid
      (.object [(some "clips", .list []), (some "quality", .string "ultra")] true) :=
    .object (by simp) (by simpa using ⟨.array (List.forall_mem_nil _), .string "ultra"⟩)
  have hfinite : Composition.Representable { clips := [], title := some { text := "Hi" } } := by
    simp [Composition.representable_iff, Title.representable_iff, TitleStyle.representable_iff,
      RelativePosition.representable_iff]
    decide +kernel
  refine ⟨documents_interchange.2.2.1.decode_of_changed hfinite ?_, hread,
    documents_interchange.2.2.1.idempotent hvalid hread⟩
  have hwritten : Composition.toJson { clips := [], title := some { text := "Hi" } } =
      .object ([(some "clips", .list [])] ++ (some "title", Title.toJson { text := "Hi" }) ::
        [(some "backgroundColor", .string "#000000"), (some "videoHeightFraction", .ofReal 0.7),
         (some "quality", .string "1080p"), (some "transition", .null), (some "ranking", .null),
         (some "captions", .list []), (some "overlays", .list []), (some "audio", .null)])
        true := by
    simp [Composition.toJson, record, ofOption, Quality.toJson, Quality.name]
  have hstyle : Change Title.layout (Title.toJson { text := "Hi" })
      (.object [(some "text", .string "Hi"),
        (some "position", RelativePosition.toJson ⟨50, 10⟩)] true) :=
    .remove [_] [_] (.tail _ (.head _))
  rw [hwritten]
  exact .tail (.tail (.single (.field [_] _ (.tail _ (.head _)) (.present hstyle)))
    (.reorder (.swap ..))) (.add [] _ (by decide) rfl)

end Montage
