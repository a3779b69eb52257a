import Mathlib.Data.List.Induction
import ComputeKernel.Proofs.Sample.Workbench

/-!
# A texture has one copy

A texture lies on the host and on the device at once, and two flags say which side is behind. For
those who use it there is one copy all the same: whatever is read is what was last written, on
whichever side. The uses of a texture are `TextureOp`: texels written and read on the host,
transfers either way, and dispatches of both kinds, by any dispatchers that share the device. Each
use does a list of writes (`TextureOp.written`), and those of a run are its `history`.
`TextureOp.run_holds` is the step and `TextureOp.runAll_holds` the run: the texture stands for the
image that the history paints on zeros.
-/

namespace ComputeKernel

open Texture
open Machine Bench
variable {m : Machine} {s : Bench K} {uv : Uint2}

/-! ## Histories -/

/-- What was last written to a texel; zero if nothing was. -/
def lastWritten (history : List (Uint2 × Float4)) (uv : Uint2) : Float4 :=
  ((history.reverse.find? fun w => w.1 = uv).map Prod.snd).getD .zero

/-- The last write counts for its texel, and for no other. -/
theorem lastWritten_concat (history : List (Uint2 × Float4)) (w : Uint2 × Float4) (uv : Uint2) :
    lastWritten (history ++ [w]) uv = if w.1 = uv then w.2 else lastWritten history uv := by
  rw [lastWritten, List.reverse_append, List.reverse_singleton, List.singleton_append,
    List.find?_cons]
  by_cases h : w.1 = uv
  · simp [h]
  · simp [h, lastWritten]

/-- Different texels stand at different places. -/
theorem Inside.place_inj {size uv uv' : Uint2} (h : Inside size uv) (h' : Inside size uv')
    (heq : uv.y.toNat * size.x.toNat + uv.x.toNat = uv'.y.toNat * size.x.toNat + uv'.x.toNat) :
    uv = uv' := by
  obtain ⟨ey, ex⟩ := digits_inj (UInt32.lt_iff_toNat_lt.1 h.1) (UInt32.lt_iff_toNat_lt.1 h'.1) heq
  obtain ⟨x, y⟩ := uv
  obtain ⟨x', y'⟩ := uv'
  obtain rfl : x = x' := UInt32.toNat_inj.1 ex
  obtain rfl : y = y' := UInt32.toNat_inj.1 ey
  rfl

/-- Painting keeps the size. -/
theorem size_foldl_paint (size : Uint2) (history : List (Uint2 × Float4)) (image : Array Float4) :
    (history.foldl (paint size) image).size = image.size := by
  induction history generalizing image with
  | nil => rfl
  | cons w history ih => rw [List.foldl_cons, ih, paint, Array.size_setIfInBounds]

/-- A painted image has at each texel what was last written. -/
theorem painted_eq_lastWritten {size : Uint2} {history : List (Uint2 × Float4)}
    (hinside : ∀ w ∈ history, Inside size w.1) (huv : Inside size uv) :
    (history.foldl (paint size) (Array.replicate (size.x.toNat * size.y.toNat) .zero))[
      uv.y.toNat * size.x.toNat + uv.x.toNat]?.getD .zero = lastWritten history uv := by
  have hplace : uv.y.toNat * size.x.toNat + uv.x.toNat < size.x.toNat * size.y.toNat := by
    rw [Nat.mul_comm size.x.toNat]
    exact digits_lt (UInt32.lt_iff_toNat_lt.1 huv.2) (UInt32.lt_iff_toNat_lt.1 huv.1)
  induction history using List.reverseRecOn with
  | nil => simp [lastWritten, hplace]
  | append_singleton history w ih =>
    have hw : Inside size w.1 := hinside w (by simp)
    rw [List.foldl_append, List.foldl_cons, List.foldl_nil, paint, Array.getElem?_setIfInBounds,
      lastWritten_concat]
    by_cases heq : w.1 = uv
    · rw [heq, if_pos rfl, if_pos rfl,
        if_pos (by rw [size_foldl_paint, Array.size_replicate]; exact hplace)]
      rfl
    · rw [if_neg heq, if_neg fun hsame => heq (hw.place_inj huv hsame)]
      exact ih fun w' hw' => hinside w' (List.mem_append_left _ hw')

/-! ## Uses of a texture -/

/-- A use of a texture. A dispatch is given with its dispatcher and with what its kernel writes. -/
inductive TextureOp : Type 1 where
  | write (uv : Uint2) (value : Float4)
  | read (uv : Uint2)
  | toDevice
  | toHost
  /-- A dispatch on the device. `kernel` has what the kernel writes to the surface of the texture,
  once it was started. -/
  | hardware {K : Type} (dispatcher : Dispatcher K) (entry : Nat) (groups : Uint3)
      (kernel : List (Uint2 × Float4))
  /-- A dispatch on the host. `writes` has what the body writes, for each thread. -/
  | emulated {K : Type} (dispatcher : Dispatcher K) (entry : Nat) (groups : Uint3)
      (writes : Uint3 → Scene K → List TexelWrite)

/-- The machine that a dispatcher has worked on. -/
def Bench.machine {K : Type} (s : Bench K) : Machine :=
  { memory := s.memory, device := s.device.getD default }

/-- A kernel writes a texel of the surface of a texture. -/
def Machine.writeSurface (r : TextureRef) (m : Machine) (w : Uint2 × Float4) : Machine :=
  match (m.memory.texture r).surface, m.device with
  | some h, .host d =>
    match d.writePixel h w.1.x w.1.y w.2 with
    | .ok (_, d) => { m with device := .host d }
    | .error _ => m
  | _, _ => m

namespace TextureOp

/-- The machine after a use. -/
def run (r : TextureRef) : TextureOp → Machine → Machine
  | .write uv value, m => (onTexture r (writePixel uv value) m).state
  | .read uv, m => (onTexture r (readPixel uv) m).state
  | .toDevice, m => (onTexture r Texture.toDevice m).state
  | .toHost, m => (onTexture r Texture.toHost m).state
  | .hardware d entry groups kernel, m =>
    let o := dispatchHardware entry groups (d.on m)
    match o.result with
    | .ok _ => kernel.foldl (Machine.writeSurface r) o.state.machine
    | .error _ => o.state.machine
  | .emulated d entry groups _, m => (dispatchEmulated entry groups (d.on m)).state.machine

/-- What a use of the texture writes to it. -/
def written (r : TextureRef) : TextureOp → Machine → List (Uint2 × Float4)
  | .write uv value, _ => [(uv, value)]
  | .read _, _ | .toDevice, _ | .toHost, _ => []
  | .hardware d entry groups kernel, m =>
    match (dispatchHardware entry groups (d.on m)).result with
    | .ok _ => kernel
    | .error _ => []
  | .emulated d entry groups writes, m =>
    (emulatedWrites writes entry groups (d.on m)).filterMap (·.at? r)

/-- Texels are there, the texture is bound for a dispatch, and the body of an emulated one writes
what it is said to. -/
def Admissible (r : TextureRef) (size : Uint2) : TextureOp → Prop
  | .write uv _ | .read uv => Inside size uv
  | .toDevice | .toHost => True
  | .hardware d entry _ kernel =>
    r ∈ (d.table entry).textures.map Prod.snd ∧ ∀ w ∈ kernel, Inside size w.1
  | .emulated d entry _ writes =>
    r ∈ (d.table entry).textures.map Prod.snd ∧
      ∀ point, d.layout.entry entry = .ok point → point.Writes writes

/-- The machine after a list of uses. -/
def runAll (r : TextureRef) (ops : List TextureOp) (m : Machine) : Machine :=
  ops.foldl (fun m op => op.run r m) m

/-- What a list of uses writes, in order. -/
def history (r : TextureRef) : List TextureOp → Machine → List (Uint2 × Float4)
  | [], _ => []
  | op :: ops, m => op.written r m ++ history r ops (op.run r m)

end TextureOp

/-! ## The step and the run -/

variable {K : Type} {r : TextureRef} {size : Uint2} {image : Array Float4} {P : Texture → Prop}

/-- A dispatcher works on what the machine holds. -/
theorem Machine.Holds.on (hm : m.Holds r size image P) (d : Dispatcher K) :
    (d.on m).Holds r size image P :=
  ⟨m.device, rfl, hm⟩

/-- A machine holds what the dispatcher left there. -/
theorem Bench.Holds.machine (hs : s.Holds r size image P) : s.machine.Holds r size image P := by
  obtain ⟨device, hdevice, hm⟩ := hs
  rw [Bench.machine, hdevice]
  exact hm

/-- The texture has the texels of its size. -/
theorem Inside.contains {t : Texture} (h : Inside size uv) (hw : t.width = size.x)
    (hh : t.height = size.y) : t.contains uv = true ∧
      t.position uv = uv.y.toNat * size.x.toNat + uv.x.toNat := by
  rw [Texture.contains, Texture.position, hw, hh]
  exact ⟨by simp [h.1, h.2], rfl⟩

/-- A kernel on the device paints the image of a texture. -/
theorem Machine.writeSurface_holds (hfits : size.x.toNat * size.y.toNat ≤ 2 ^ 32)
    (hm : m.Holds r size image fun t => t.hostStale = true) {w : Uint2 × Float4}
    (hw : Inside size w.1) :
    (m.writeSurface r w).Holds r size (paint size image w) fun t => t.hostStale = true := by
  obtain ⟨memory, _⟩ := m
  obtain ⟨d, rfl, hs, hstale⟩ := hm
  obtain ⟨-, h, hsurface⟩ := hs.coherent.behind hstale
  obtain ⟨hcontains, hposition⟩ := hw.contains hs.width hs.height
  obtain ⟨d', hwrite, hf, hc⟩ := hs.coherent.writeSurface hsurface hstale hcontains
    (by rw [hs.width, hs.height]; exact hfits) w.2
  rw [hposition] at hc
  have hown := hs.own hf hc
  rw [Memory.setTexture_self] at hown
  simp only [writeSurface, hsurface, hwrite]
  exact ⟨d', rfl, hown, hstale⟩

/-- The writes of a kernel on the device paint it in turn. -/
theorem Machine.foldl_writeSurface_holds (hfits : size.x.toNat * size.y.toNat ≤ 2 ^ 32)
    {kernel : List (Uint2 × Float4)} (hkernel : ∀ w ∈ kernel, Inside size w.1) :
    ∀ {m : Machine} {image : Array Float4}, (m.Holds r size image fun t => t.hostStale = true) →
      (kernel.foldl (Machine.writeSurface r) m).Holds r size (kernel.foldl (paint size) image)
        fun t => t.hostStale = true := by
  induction kernel with
  | nil => exact fun hm => hm
  | cons w kernel ih =>
    intro m image hm
    exact ih (fun w' hw' => hkernel w' (.tail _ hw'))
      (writeSurface_holds hfits hm (hkernel w (.head _)))

namespace TextureOp

/-- A use of the texture paints the image with what it writes. -/
theorem run_holds (hfits : size.x.toNat * size.y.toNat ≤ 2 ^ 32) {m : Machine}
    (hm : m.Holds r size image fun _ => True) (op : TextureOp) (hop : op.Admissible r size) :
    (∀ w ∈ op.written r m, Inside size w.1) ∧
      (op.run r m).Holds r size ((op.written r m).foldl (paint size) image) fun _ => True := by
  cases op with
  | write uv value =>
    refine ⟨fun w hw => List.mem_singleton.1 hw ▸ hop, ?_⟩
    refine holds_onTexture hm (fun _ _ => keeps_writePixel uv value) fun t d hc hw hh => ?_
    obtain ⟨hcontains, hposition⟩ := Inside.contains hop hw hh
    have hwrite := writePixel_coherent hc hcontains value
    rw [hposition] at hwrite
    exact hwrite
  | read uv =>
    refine ⟨fun w hw => (nomatch hw), ?_⟩
    refine holds_onTexture hm (fun _ _ => keeps_readPixel uv) fun t d hc hw hh => ?_
    exact (readPixel_coherent hc (Inside.contains hop hw hh).1).mono (fun _ _ h => h.2) fun _ h => h
  | toDevice =>
    refine ⟨fun w hw => (nomatch hw), ?_⟩
    refine holds_onTexture hm (fun _ _ => keeps_toDevice) fun t d hc _ _ => ?_
    exact (toDevice_coherent hc).mono (fun _ _ h => h.1) fun _ h => h
  | toHost =>
    refine ⟨fun w hw => (nomatch hw), ?_⟩
    refine holds_onTexture hm (fun _ _ => keeps_toHost) fun t d hc _ _ => ?_
    exact (toHost_coherent hc).mono (fun _ _ h => h.1) fun _ h => h
  | hardware d entry groups kernel =>
    have hdispatch := dispatchHardware_holds groups (hm.on d) hop.1
    simp only [run, written]
    cases hresult : (dispatchHardware entry groups (d.on m)).result with
    | error e => exact ⟨fun w hw => (nomatch hw), (hdispatch.of_error hresult).machine⟩
    | ok _ =>
      refine ⟨hop.2, ?_⟩
      exact (foldl_writeSurface_holds hfits hop.2 (hdispatch.of_ok hresult).machine).mono
        fun _ _ => trivial
  | emulated d entry groups writes =>
    obtain ⟨hinside, hholds⟩ := dispatchEmulated_holds groups (hm.on d) hop.1 hop.2
    exact ⟨hinside, hholds.machine⟩

/-- After any uses the texture has the image of their history. -/
theorem runAll_holds (hfits : size.x.toNat * size.y.toNat ≤ 2 ^ 32) (ops : List TextureOp)
    (hops : ∀ op ∈ ops, op.Admissible r size) :
    ∀ {m : Machine} {image : Array Float4}, (m.Holds r size image fun _ => True) →
      (∀ w ∈ history r ops m, Inside size w.1) ∧
        (runAll r ops m).Holds r size ((history r ops m).foldl (paint size) image)
          fun _ => True := by
  induction ops with
  | nil => exact fun hm => ⟨fun w hw => (nomatch hw), hm⟩
  | cons op ops ih =>
    intro m image hm
    obtain ⟨hinside, hstep⟩ := run_holds hfits hm op (hops op (.head _))
    obtain ⟨hrest, hrun⟩ := ih (fun op' hop' => hops op' (.tail _ hop')) hstep
    rw [history, List.foldl_append]
    exact ⟨fun w hw => (List.mem_append.1 hw).elim (hinside w) (hrest w), hrun⟩

end TextureOp

/-! ## Reading -/

/-- A texture that no device has used stands for zeros. -/
theorem Machine.holds_zeros {d : HostDevice} {t : Texture} {format : TexelFormat}
    (hd : m.device = .host d) (hpresent : r.index < m.memory.textures.size)
    (ht : zeros? size.x size.y format = .ok t) (hr : m.memory.texture r = t)
    (hissued : ∀ r' h, (m.memory.texture r').surface = some h → h.id ≤ d.issued) :
    m.Holds r size (Array.replicate (size.x.toNat * size.y.toNat) .zero) fun _ => True := by
  have hzeros : t.width = size.x ∧ t.height = size.y ∧ t.surface = none ∧ t.hostStale = false ∧
      t.pixels = Array.replicate (size.x.toNat * size.y.toNat) .zero ∧
      t.image = Array.replicate (size.x.toNat * size.y.toNat) .zero := by
    simp only [zeros?] at ht
    split at ht
    · split at ht
      · cases ht
        exact ⟨rfl, rfl, rfl, rfl, pixels_of_zero rfl, rfl⟩
      · cases ht
    · cases ht
  obtain ⟨hw, hh, hsurface, hstale, hpixels, himage⟩ := hzeros
  subst hr
  refine ⟨d, hd, ⟨hpresent, hw, hh, ⟨?_, fun _ => hpixels, fun h hh => ?_, fun htrue => ?_⟩,
    hissued, ?_⟩, trivial⟩
  · rw [himage, Array.size_replicate, hw, hh]
  · exact absurd (hsurface.symm.trans hh) (Option.some_ne_none h).symm
  · exact absurd (hstale.symm.trans htrue) Bool.false_ne_true
  · exact fun _ h _ _ heq => absurd (hsurface.symm.trans heq) (Option.some_ne_none h).symm

/-- What the host's texels are once they are current. -/
theorem Bench.Holds.texel_eq (hs : s.Holds r size image fun t => t.hostStale = false)
    (huv : Inside size uv) :
    (s.memory.texture r).texel uv = image[uv.y.toNat * size.x.toNat + uv.x.toNat]?.getD .zero := by
  obtain ⟨_, _, d, _, hsettled, hstale⟩ := hs
  rw [Texture.texel_eq, (huv.contains hsettled.width hsettled.height).2,
    hsettled.coherent.host hstale]

/-- What is read of a texel, and reading never fails. -/
theorem Machine.Holds.readPixel_eq (hm : m.Holds r size image P) (huv : Inside size uv) :
    (onTexture r (readPixel uv) m).result
      = .ok (image[uv.y.toNat * size.x.toNat + uv.x.toNat]?.getD .zero) := by
  obtain ⟨memory, _⟩ := m
  obtain ⟨d, rfl, hs, -⟩ := hm
  obtain ⟨hcontains, hposition⟩ := huv.contains hs.width hs.height
  have hread := readPixel_coherent hs.coherent hcontains
  show (readPixel uv (memory.texture r, .host d)).result = _
  cases hresult : (readPixel uv (memory.texture r, .host d)).result with
  | error e => exact (hread.of_error hresult).elim
  | ok value => rw [(hread.of_ok hresult).1, hposition]

/-- What the surface holds while the device is the newer side. -/
theorem Bench.Holds.surface_eq (hs : s.Holds r size image fun t => t.hostStale = true) :
    ∃ d h surface, s.device = some (.host d) ∧ (s.memory.texture r).surface = some h ∧
      d.surfaces.get? h.id = some surface ∧ surface.pixels = image := by
  obtain ⟨_, hdevice, d, rfl, hsettled, hstale⟩ := hs
  obtain ⟨hcurrent, h, hsurface⟩ := hsettled.coherent.behind hstale
  obtain ⟨surface, hget, -, -, -, himage⟩ := hsettled.coherent.device h hsurface
  exact ⟨d, h, surface, hdevice, hsurface, hget, himage hcurrent⟩

/-- **A texture has one copy.** Take a texture of zeros whose places are words, and any uses of it
in any order, by dispatchers that share one device in host memory, on which all surfaces of the
machine were made. Afterwards reading a texel succeeds and gives what was last written to it, by
either side, and zero if nothing was. The same texels are what the lanes of an emulated dispatch
start from, and a kernel on the device. -/
theorem texture_single_copy (r : TextureRef) (size : Uint2) {format : TexelFormat} {t : Texture}
    {m : Machine} {d : HostDevice} (hfits : size.x.toNat * size.y.toNat ≤ 2 ^ 32)
    (ht : zeros? size.x size.y format = .ok t) (hpresent : r.index < m.memory.textures.size)
    (hr : m.memory.texture r = t) (hd : m.device = .host d)
    (hissued : ∀ r' h, (m.memory.texture r').surface = some h → h.id ≤ d.issued)
    (ops : List TextureOp) (hops : ∀ op ∈ ops, op.Admissible r size) :
    (∀ uv, Inside size uv →
      (onTexture r (readPixel uv) (TextureOp.runAll r ops m)).result
        = .ok (lastWritten (TextureOp.history r ops m) uv)) ∧
    (∀ {K : Type} (dispatcher : Dispatcher K) (entry : Nat),
      r ∈ (dispatcher.table entry).textures.map Prod.snd →
      let o := enter (dispatcher.table entry) (dispatcher.on (TextureOp.runAll r ops m))
      o.result = .ok () → ∀ uv, Inside size uv →
        (o.state.memory.texture r).texel uv = lastWritten (TextureOp.history r ops m) uv) ∧
    ∀ {K : Type} (dispatcher : Dispatcher K) (entry : Nat) (groups : Uint3),
      r ∈ (dispatcher.table entry).textures.map Prod.snd →
      let o := dispatchHardware entry groups (dispatcher.on (TextureOp.runAll r ops m))
      o.result = .ok () → ∃ d h surface, o.state.device = some (.host d) ∧
        (o.state.memory.texture r).surface = some h ∧ d.surfaces.get? h.id = some surface ∧
        ∀ uv, Inside size uv → surface.pixels[uv.y.toNat * size.x.toNat + uv.x.toNat]?.getD .zero
          = lastWritten (TextureOp.history r ops m) uv := by
  have hzeros := holds_zeros hd hpresent ht hr hissued
  obtain ⟨hinside, hholds⟩ := TextureOp.runAll_holds hfits ops hops hzeros
  have hlast : ∀ uv, Inside size uv → _ := fun uv huv => painted_eq_lastWritten hinside huv
  refine ⟨fun uv huv => ?_, fun dispatcher entry hbound hok uv huv => ?_,
    fun dispatcher entry groups hbound hok => ?_⟩
  · rw [hholds.readPixel_eq huv, hlast uv huv]
  · rw [((enter_holds (hholds.on dispatcher) hbound).of_ok hok).texel_eq huv, hlast uv huv]
  · have hdispatch := dispatchHardware_holds groups (hholds.on dispatcher) hbound
    obtain ⟨d, h, surface, hdevice, hsurface, hget, himage⟩ := (hdispatch.of_ok hok).surface_eq
    exact ⟨d, h, surface, hdevice, hsurface, hget, fun uv huv => by rw [himage, hlast uv huv]⟩

namespace Easel

/-- A texture of two by two texels. -/
def canvas : Texture where
  width := 2
  height := 2
  format := .rgba32Float
  words := Array.replicate 16 0
  image := Array.replicate 4 .zero
  size_words := by decide
  fits := by decide

/-- It is given a new device. -/
def machine : Machine :=
  { memory := { textures := #[canvas] }, device := .host (.ofEntries ["Brighten"]) }

/-- A workbench that brightens the first row of the canvas. -/
def dispatcher : Dispatcher Workbench where
  kernel := {}
  layout :=
    { entries := [{ Workbench.entry "Brighten" ⟨2, 1, 1⟩ .brighten with ordinal := 0 }]
      slots := [WorkbenchField.t0.slot "canvas"] }
  tables := [{ textures := [("canvas", ⟨0⟩)] }]
  last := [none]

/-- A kernel on the device writes two texels, the host another one, and a kernel on the host a
row. -/
def ops : List TextureOp :=
  [.hardware dispatcher 0 ⟨1, 1, 1⟩ [(⟨0, 0⟩, ⟨0x3f800000, 1, 0, 0⟩), (⟨1, 1⟩, ⟨7, 7, 7, 7⟩)],
    .write ⟨1, 0⟩ ⟨0x40000000, 2, 0, 0⟩,
    .emulated dispatcher 0 ⟨1, 1, 1⟩ (Workbench.Body.brighten.writes)]

end Easel

/-- The kernel's write in the first row is brightened by the lanes, and the one in the second row is
left. -/
theorem easel_single_copy :
    (onTexture ⟨0⟩ (readPixel ⟨0, 0⟩) (TextureOp.runAll ⟨0⟩ Easel.ops Easel.machine)).result
        = .ok ⟨0x40000000, 1, 0, 0⟩ ∧
      (onTexture ⟨0⟩ (readPixel ⟨1, 1⟩) (TextureOp.runAll ⟨0⟩ Easel.ops Easel.machine)).result
        = .ok ⟨7, 7, 7, 7⟩ := by
  have hissued : ∀ r' h, (Easel.machine.memory.texture r').surface = some h → h.id ≤ 0 := by
    rintro ⟨_ | i⟩ h hh
    · cases hh
    · simp [Memory.texture, Easel.machine] at hh
      cases hh
  have hops : ∀ op ∈ Easel.ops, op.Admissible ⟨0⟩ ⟨2, 2⟩ := by
    intro op hop
    simp only [Easel.ops, List.mem_cons, List.not_mem_nil, or_false] at hop
    rcases hop with rfl | rfl | rfl
    · exact ⟨by decide, by decide⟩
    · exact ⟨by decide, by decide⟩
    · refine ⟨by decide, fun point hpoint => ?_⟩
      cases hpoint
      exact Workbench.Body.run_writes .brighten rfl
  obtain ⟨hread, -, -⟩ := texture_single_copy ⟨0⟩ ⟨2, 2⟩ (t := Easel.canvas) (m := Easel.machine)
    (by decide) rfl (by decide) rfl rfl hissued Easel.ops hops
  rw [hread ⟨0, 0⟩ ⟨by decide, by decide⟩, hread ⟨1, 1⟩ ⟨by decide, by decide⟩]
  have h00 : lastWritten (TextureOp.history ⟨0⟩ Easel.ops Easel.machine) ⟨0, 0⟩ =
      ⟨0x40000000, 1, 0, 0⟩ := by
    decide +kernel
  have h11 : lastWritten (TextureOp.history ⟨0⟩ Easel.ops Easel.machine) ⟨1, 1⟩ = ⟨7, 7, 7, 7⟩ := by
    decide +kernel
  rw [h00, h11]
  exact ⟨rfl, rfl⟩

end ComputeKernel
