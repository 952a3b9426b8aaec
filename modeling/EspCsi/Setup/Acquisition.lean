import EspCsi.Csi.Esp
import EspCsi.Wire.Setup

/-!
# Acquisition

`config/csi.rs`: what a build asks its radio to acquire. The three MAC generations take different
configurations. Which PPDU formats the radio then acquires is the radio's: it is known here only as
far as the fields are documented.
-/

namespace EspCsi.Setup

open Wire Csi

structure ClassicCsiConfig where
  lltfEn : Bool
  htltfEn : Bool
  stbcHtltf2En : Bool
  ltfMergeEn : Bool
  channelFilterEn : Bool
  manuScale : Bool
  shift : UInt8
  dumpAckEn : Bool
deriving DecidableEq, Repr

structure C6CsiConfig where
  enable : UInt32
  acquireCsiLegacy : UInt32
  acquireCsiHt20 : UInt32
  acquireCsiHt40 : UInt32
  acquireCsiSu : UInt32
  acquireCsiMu : UInt32
  acquireCsiDcm : UInt32
  acquireCsiBeamformed : UInt32
  acquireCsiHeStbc : UInt32
  valScaleCfg : UInt32
  dumpAckEn : UInt32
  reserved : UInt32
deriving DecidableEq, Repr

/-- The ESP32-C5's configuration, which adds the forced L-LTF and VHT. -/
structure C5CsiConfig extends C6CsiConfig where
  acquireCsiForceLltf : Bool
  acquireCsiVht : Bool
deriving DecidableEq, Repr

def ClassicCsiConfig.default : ClassicCsiConfig where
  lltfEn := true
  htltfEn := true
  stbcHtltf2En := true
  ltfMergeEn := true
  channelFilterEn := false
  manuScale := false
  shift := 0
  dumpAckEn := false

namespace C6CsiConfig

def default : C6CsiConfig where
  enable := 1
  acquireCsiLegacy := 1
  acquireCsiHt20 := 1
  acquireCsiHt40 := 1
  acquireCsiSu := 1
  acquireCsiMu := 1
  acquireCsiDcm := 1
  acquireCsiBeamformed := 1
  acquireCsiHeStbc := 2
  valScaleCfg := 2
  dumpAckEn := 1
  reserved := 19

def he20 : C6CsiConfig :=
  { default with acquireCsiLegacy := 0, acquireCsiHt20 := 0, acquireCsiHt40 := 0, dumpAckEn := 0 }

def withoutLegacy (c : C6CsiConfig) : C6CsiConfig := { c with acquireCsiLegacy := 0 }

end C6CsiConfig

namespace C5CsiConfig

def default : C5CsiConfig :=
  { C6CsiConfig.default with reserved := 0, acquireCsiForceLltf := true, acquireCsiVht := true }

def he20 : C5CsiConfig :=
  { default with
    acquireCsiLegacy := 0
    acquireCsiHt20 := 0
    acquireCsiHt40 := 0
    dumpAckEn := 0
    acquireCsiForceLltf := false
    acquireCsiVht := false }

def withoutLegacy (c : C5CsiConfig) : C5CsiConfig :=
  { c with acquireCsiLegacy := 0, acquireCsiForceLltf := false }

end C5CsiConfig

/-- The configuration a chip's build takes. -/
def CsiConfig : Chip → Type
  | .esp32C5 => C5CsiConfig
  | .esp32C6 => C6CsiConfig
  | .esp32 | .esp32S2 | .esp32S3 | .esp32C3 => ClassicCsiConfig

/-- What a configuration can switch on. -/
inductive Switch where
  -- the classic MAC
  | lltf
  | htltf
  | stbcHtltf2
  -- the 802.11ax generation
  | legacy
  | forceLltf
  | ht20
  | ht40
  | vht
  | su
  | mu
  | dcm
  | beamformed
  -- 802.11 ACK frames
  | ack
deriving DecidableEq, Repr

/-- The formats of the PPDUs that a switch is documented to be about. -/
def Switch.covers : Switch → PpduFormat → Bool
  | .lltf, .nonHt | .lltf, .ht | .lltf, .vht => true
  | .htltf, .ht | .stbcHtltf2, .ht => true
  | .legacy, .nonHt => true
  -- every OFDM preamble begins with an L-LTF
  | .forceLltf, .nonHt | .forceLltf, .ht | .forceLltf, .vht | .forceLltf, .vhtMu => true
  | .forceLltf, .heSu | .forceLltf, .heMu | .forceLltf, .heErSu | .forceLltf, .heTb => true
  | .ht20, .ht | .ht40, .ht => true
  | .vht, .vht | .vht, .vhtMu => true
  | .su, .heSu | .su, .heErSu => true
  | .mu, .heMu | .mu, .heTb => true
  | .dcm, .heSu | .dcm, .heMu | .dcm, .heErSu | .dcm, .heTb => true
  | .beamformed, .heSu | .beamformed, .heMu | .beamformed, .heErSu | .beamformed, .heTb => true
  | .ack, .dsss | .ack, .nonHt => true
  | _, _ => false

/-- What the radio acquires for each switch. -/
structure Radio where
  acquires : Switch → PpduFormat → Bool
  covers : ∀ sw f, acquires sw f = true → sw.covers f = true

/-- A radio that acquires every PPDU its switches are about. -/
def Radio.full : Radio := ⟨Switch.covers, fun _ _ h => h⟩

def ClassicCsiConfig.on (c : ClassicCsiConfig) : Switch → Bool
  | .lltf => c.lltfEn
  | .htltf => c.htltfEn
  | .stbcHtltf2 => c.stbcHtltf2En
  | .ack => c.dumpAckEn
  | _ => false

def C6CsiConfig.on (c : C6CsiConfig) (sw : Switch) : Bool :=
  c.enable != 0 &&
    match sw with
    | .legacy => c.acquireCsiLegacy != 0
    | .ht20 => c.acquireCsiHt20 != 0
    | .ht40 => c.acquireCsiHt40 != 0
    | .su => c.acquireCsiSu != 0
    | .mu => c.acquireCsiMu != 0
    | .dcm => c.acquireCsiDcm != 0
    | .beamformed => c.acquireCsiBeamformed != 0
    | .ack => c.dumpAckEn != 0
    | _ => false

def C5CsiConfig.on (c : C5CsiConfig) : Switch → Bool
  | .forceLltf => c.enable != 0 && c.acquireCsiForceLltf
  | .vht => c.enable != 0 && c.acquireCsiVht
  -- `set_csi` cannot register it on this chip
  | .ack => false
  | sw => c.toC6CsiConfig.on sw

namespace CsiConfig

def default : (chip : Chip) → CsiConfig chip
  | .esp32C5 => C5CsiConfig.default
  | .esp32C6 => C6CsiConfig.default
  | .esp32 | .esp32S2 | .esp32S3 | .esp32C3 => ClassicCsiConfig.default

def on : {chip : Chip} → CsiConfig chip → Switch → Bool
  | .esp32C5, c => C5CsiConfig.on c
  | .esp32C6, c => C6CsiConfig.on c
  | .esp32, c | .esp32S2, c | .esp32S3, c | .esp32C3, c => ClassicCsiConfig.on c

def Acquires (radio : Radio) {chip : Chip} (c : CsiConfig chip) (f : PpduFormat) : Prop :=
  ∃ sw, c.on sw = true ∧ radio.acquires sw f = true

/-- Whether every PPDU format the chip can acquire is switched on. -/
def everyFormat : {chip : Chip} → CsiConfig chip → Bool
  | .esp32C5, c =>
    [.legacy, .ht20, .ht40, .vht, .su, .mu, .dcm, .beamformed].all (C5CsiConfig.on c)
  | .esp32C6, c => [.legacy, .ht20, .ht40, .su, .mu, .dcm, .beamformed].all (C6CsiConfig.on c)
  | .esp32, c | .esp32S2, c | .esp32S3, c | .esp32C3, c =>
    [.lltf, .htltf].all (ClassicCsiConfig.on c)

/-- HE20-only acquisition. A classic build has none, and never asks for it. -/
def he20 : (chip : Chip) → CsiConfig chip
  | .esp32C5 => C5CsiConfig.he20
  | .esp32C6 => C6CsiConfig.he20
  | .esp32 | .esp32S2 | .esp32S3 | .esp32C3 => ClassicCsiConfig.default

def withoutLegacy : {chip : Chip} → CsiConfig chip → CsiConfig chip
  | .esp32C5, c => C5CsiConfig.withoutLegacy c
  | .esp32C6, c => C6CsiConfig.withoutLegacy c
  | .esp32, c | .esp32S2, c | .esp32S3, c | .esp32C3, c => c

/-- What a format set makes of the acquisition. A classic MAC filters received frames instead. -/
def select {chip : Chip} (formats : PpduSet) (c : Option (CsiConfig chip)) :
    Option (CsiConfig chip) :=
  if !isHe chip then c
  else if formats.onlyHe then some (he20 chip)
  else if formats.excludesLegacy then some (c.getD (.default chip)).withoutLegacy
  else c

variable {chip : Chip}

@[simp]
theorem withoutLegacy_withoutLegacy (c : CsiConfig chip) :
    c.withoutLegacy.withoutLegacy = c.withoutLegacy := by
  cases chip <;> rfl

@[simp]
theorem withoutLegacy_he20 : (he20 chip).withoutLegacy = he20 chip := by
  cases chip <;> rfl

@[simp]
theorem on_legacy_he20 (h : isHe chip = true) : (he20 chip).on .legacy = false := by
  cases chip with
  | esp32C5 | esp32C6 => rfl
  | _ => cases h

@[simp]
theorem on_legacy_withoutLegacy (h : isHe chip = true) (c : CsiConfig chip) :
    c.withoutLegacy.on .legacy = false := by
  cases chip with
  | esp32C5 | esp32C6 =>
    show (_ && false) = false
    rw [Bool.and_false]
  | _ => cases h

theorem on_legacy_of_everyFormat {c : CsiConfig chip} (hchip : isHe chip = true)
    (h : c.everyFormat = true) : c.on .legacy = true := by
  cases chip with
  | esp32C5 | esp32C6 => exact List.all_eq_true.mp h .legacy (by simp)
  | _ => cases hchip

end CsiConfig

end EspCsi.Setup
