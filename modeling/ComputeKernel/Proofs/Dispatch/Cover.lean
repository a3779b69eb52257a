import Mathlib.Data.List.Nodup
import Mathlib.Data.List.ProdSigma
import ComputeKernel.Dispatch.Emulation
import ComputeKernel.Proofs.Data.Digit
import ComputeKernel.Proofs.Run.Spec

/-!
# An emulated dispatch covers its grid

A lane number is written in the mixed radix of the extent, a visit adds a point of the groups to it,
and the id of the thread is `lane * groups + point` in each component. So the visits of a dispatch
are the pairs of a point below the extent and a point below the groups (`visits_eq_product`), and
the ids are those pairs read as two-digit numbers (`threadId_inj`, `exists_threadId`). The checked
arithmetic of words agrees with this as long as each component of the grid fits in 32 bits
(`id?_eq_ok`) and the number of lanes in 64 (`lane_toNat`).
-/

namespace ComputeKernel

open List
open Grid Uint3 ComputeKernel.Action

/-! ## Vectors -/

/-- Each component of the first is below the second's. -/
def Uint3.Below (v bound : Uint3) : Prop :=
  v.x.toNat < bound.x.toNat ∧ v.y.toNat < bound.y.toNat ∧ v.z.toNat < bound.z.toNat

/-- Vectors are equal when their components are, as numbers. -/
theorem Uint3.ext_toNat {v w : Uint3} (hx : v.x.toNat = w.x.toNat) (hy : v.y.toNat = w.y.toNat)
    (hz : v.z.toNat = w.z.toNat) : v = w := by
  obtain ⟨vx, vy, vz⟩ := v
  obtain ⟨wx, wy, wz⟩ := w
  obtain rfl : vx = wx := UInt32.toNat_inj.1 hx
  obtain rfl : vy = wy := UInt32.toNat_inj.1 hy
  obtain rfl : vz = wz := UInt32.toNat_inj.1 hz
  rfl

namespace Grid

variable {l p : Uint3}

/-! ## Lanes -/

/-- The digits of a lane number are below the extent. -/
theorem lane_digits_lt {a b c n : Nat} (h : n < a * b * c) :
    n % a < a ∧ n / a % b < b ∧ n / (a * b) < c := by
  have habc : 0 < a * b * c := Nat.zero_lt_of_lt h
  have hab : 0 < a * b := Nat.pos_of_mul_pos_right habc
  refine ⟨Nat.mod_lt _ (Nat.pos_of_mul_pos_right hab),
    Nat.mod_lt _ (Nat.pos_of_mul_pos_left hab), ?_⟩
  exact Nat.div_lt_of_lt_mul h

/-- A lane number is determined by its digits. -/
theorem lane_digits_eq (a b n : Nat) : n = n % a + a * (n / a % b) + a * b * (n / (a * b)) := by
  have h1 := Nat.mod_add_div n a
  have h2 := Nat.mod_add_div (n / a) b
  rw [Nat.div_div_eq_div_mul] at h2
  calc n = n % a + a * (n / a) := h1.symm
    _ = n % a + a * (n / a % b + b * (n / (a * b))) := by rw [h2]
    _ = n % a + a * (n / a % b) + a * b * (n / (a * b)) := by
        rw [Nat.mul_add, Nat.mul_assoc, Nat.add_assoc]

/-- Three digits below the extent make up a lane number. -/
theorem exists_lane_digits {a b c x y z : Nat} (hx : x < a) (hy : y < b) (hz : z < c) :
    ∃ n < a * b * c, n % a = x ∧ n / a % b = y ∧ n / (a * b) = z := by
  have ha : 0 < a := Nat.zero_lt_of_lt hx
  have hb : 0 < b := Nat.zero_lt_of_lt hy
  have hxy : x + a * y < a * b := by
    calc x + a * y < a + a * y := Nat.add_lt_add_right hx _
      _ = a * (y + 1) := by rw [Nat.mul_succ, Nat.add_comm]
      _ ≤ a * b := Nat.mul_le_mul_left a hy
  refine ⟨x + a * y + a * b * z, ?_, ?_, ?_, ?_⟩
  · calc x + a * y + a * b * z < a * b + a * b * z := Nat.add_lt_add_right hxy _
      _ = a * b * (z + 1) := by rw [Nat.mul_succ, Nat.add_comm]
      _ ≤ a * b * c := Nat.mul_le_mul_left _ hz
  · rw [Nat.mul_assoc, Nat.add_assoc, ← Nat.mul_add, Nat.add_mul_mod_self_left, Nat.mod_eq_of_lt hx]
  · rw [Nat.mul_assoc, Nat.add_assoc, ← Nat.mul_add, Nat.add_mul_div_left _ _ ha,
      Nat.div_eq_of_lt hx, Nat.zero_add, Nat.add_mul_mod_self_left, Nat.mod_eq_of_lt hy]
  · rw [Nat.add_mul_div_left _ _ (Nat.mul_pos ha hb), Nat.div_eq_of_lt hxy, Nat.zero_add]

variable {extent groups : Uint3}

/-- The number of lanes is the product. -/
theorem laneCount_eq (h : extent.x.toNat * extent.y.toNat * extent.z.toNat < 2 ^ 64) :
    laneCount extent = extent.x.toNat * extent.y.toNat * extent.z.toNat := by
  have hvolume : extent.volume? = some (extent.x.toNat * extent.y.toNat * extent.z.toNat) :=
    if_pos h
  rw [laneCount, hvolume, Option.getD_some]

/-- The components of a lane are the digits of its number. -/
theorem lane_toNat {n : Nat} (h : n < extent.x.toNat * extent.y.toNat * extent.z.toNat) :
    (lane extent n).x.toNat = n % extent.x.toNat ∧
      (lane extent n).y.toNat = n / extent.x.toNat % extent.y.toNat ∧
      (lane extent n).z.toNat = n / (extent.x.toNat * extent.y.toNat) := by
  obtain ⟨hx, hy, hz⟩ := lane_digits_lt h
  exact ⟨toNat_toUInt32_of_lt hx, toNat_toUInt32_of_lt hy, toNat_toUInt32_of_lt hz⟩

/-- The lanes of an extent, in order. -/
def lanes (extent : Uint3) : List Uint3 := (range (laneCount extent)).map (lane extent)

/-- The lanes are the points below the extent. -/
theorem mem_lanes (h : extent.x.toNat * extent.y.toNat * extent.z.toNat < 2 ^ 64) :
    l ∈ lanes extent ↔ l.Below extent := by
  simp only [lanes, laneCount_eq h, mem_map, mem_range]
  constructor
  · rintro ⟨n, hn, rfl⟩
    obtain ⟨ex, ey, ez⟩ := lane_toNat hn
    obtain ⟨hx, hy, hz⟩ := lane_digits_lt hn
    exact ⟨ex ▸ hx, ey ▸ hy, ez ▸ hz⟩
  · rintro ⟨hx, hy, hz⟩
    obtain ⟨n, hn, dx, dy, dz⟩ := exists_lane_digits hx hy hz
    obtain ⟨ex, ey, ez⟩ := lane_toNat hn
    exact ⟨n, hn, ext_toNat (ex.trans dx) (ey.trans dy) (ez.trans dz)⟩

/-- Different lane numbers stand for different points. -/
theorem nodup_lanes (h : extent.x.toNat * extent.y.toNat * extent.z.toNat < 2 ^ 64) :
    (lanes extent).Nodup := by
  refine List.nodup_range.map_on fun m hm n hn heq => ?_
  rw [laneCount_eq h] at hm hn
  obtain ⟨mx, my, mz⟩ := lane_toNat (mem_range.1 hm)
  obtain ⟨nx, ny, nz⟩ := lane_toNat (mem_range.1 hn)
  rw [heq] at mx my mz
  rw [lane_digits_eq extent.x.toNat extent.y.toNat m,
    lane_digits_eq extent.x.toNat extent.y.toNat n, ← mx, ← my, ← mz, ← nx, ← ny, ← nz]

/-! ## Points of the groups -/

/-- The points of the groups are the points below them. -/
theorem mem_points : p ∈ points groups ↔ p.Below groups := by
  simp only [points, mem_flatMap, mem_map, mem_range]
  constructor
  · rintro ⟨z, hz, y, hy, x, hx, rfl⟩
    exact ⟨(toNat_toUInt32_of_lt hx).symm ▸ hx, (toNat_toUInt32_of_lt hy).symm ▸ hy,
      (toNat_toUInt32_of_lt hz).symm ▸ hz⟩
  · rintro ⟨hx, hy, hz⟩
    exact ⟨_, hz, _, hy, _, hx, ext_toNat (toNat_toUInt32_of_lt hx) (toNat_toUInt32_of_lt hy)
      (toNat_toUInt32_of_lt hz)⟩

/-- No point of the groups is visited twice by one lane. -/
theorem nodup_points : (points groups).Nodup := by
  -- The loops over z, y and x in turn: within one turn the inner list has no repetition, and two
  -- turns differ in the component that the loop runs over.
  refine nodup_flatMap.2 ⟨fun z _ => nodup_flatMap.2 ⟨fun y _ => ?_, ?_⟩, ?_⟩
  · refine List.nodup_range.map_on fun m hm n hn heq => ?_
    exact toUInt32_inj_of_lt (mem_range.1 hm) (mem_range.1 hn) (congrArg Uint3.x heq)
  · refine List.nodup_range.imp_of_mem fun {m n} hm hn hne p hpm hpn => hne ?_
    obtain ⟨_, _, rfl⟩ := mem_map.1 hpm
    obtain ⟨_, _, heq⟩ := mem_map.1 hpn
    exact toUInt32_inj_of_lt (mem_range.1 hm) (mem_range.1 hn) (congrArg Uint3.y heq).symm
  · refine List.nodup_range.imp_of_mem fun {m n} hm hn hne p hpm hpn => hne ?_
    obtain ⟨_, _, hpm⟩ := mem_flatMap.1 hpm
    obtain ⟨_, _, rfl⟩ := mem_map.1 hpm
    obtain ⟨_, _, hpn⟩ := mem_flatMap.1 hpn
    obtain ⟨_, _, heq⟩ := mem_map.1 hpn
    exact toUInt32_inj_of_lt (mem_range.1 hm) (mem_range.1 hn) (congrArg Uint3.z heq).symm

/-! ## Visits -/

/-- A visit is a lane and a point of the groups. -/
theorem visits_eq_product : visits extent groups = lanes extent ×ˢ points groups := by
  rw [visits, lanes, SProd.sprod, instSProd]
  simp only [product, flatMap_map]

/-- The visits are the pairs of points below. -/
theorem mem_visits (h : extent.x.toNat * extent.y.toNat * extent.z.toNat < 2 ^ 64)
    {v : Uint3 × Uint3} :
    v ∈ visits extent groups ↔ v.1.Below extent ∧ v.2.Below groups := by
  rw [visits_eq_product, mem_product, mem_lanes h, mem_points]

/-- No visit is repeated. -/
theorem nodup_visits (h : extent.x.toNat * extent.y.toNat * extent.z.toNat < 2 ^ 64) :
    (visits extent groups).Nodup := by
  rw [visits_eq_product]
  exact (nodup_lanes h).product nodup_points

/-! ## Ids -/

/-- The id of a lane at a point of the groups, without checks. -/
def threadId (groups lane point : Uint3) : Uint3 :=
  ⟨lane.x * groups.x + point.x, lane.y * groups.y + point.y, lane.z * groups.z + point.z⟩

/-- A component of an id is found, and is exact. -/
theorem coordinate?_eq_ok {e g l i : UInt32} (hl : l.toNat < e.toNat) (hi : i.toNat < g.toNat)
    (h : e.toNat * g.toNat < 2 ^ 32) :
    coordinate? l g i = .ok (l * g + i) ∧ (l * g + i).toNat = l.toNat * g.toNat + i.toNat := by
  have hsum : l.toNat * g.toNat + i.toNat < 2 ^ 32 := Nat.lt_trans (digits_lt hl hi) h
  obtain ⟨hp, ep⟩ := Word.product?_eq_ok (a := l) (b := g) (by omega)
  obtain ⟨hs, es⟩ := Word.sum?_eq_ok (a := l * g) (b := i) (by rw [ep]; exact hsum)
  refine ⟨?_, es.trans (by rw [ep])⟩
  rw [coordinate?, hp]
  exact hs

/-- The components of the grid fit in 32 bits. -/
structure Fits (extent groups : Uint3) : Prop where
  x : extent.x.toNat * groups.x.toNat < 2 ^ 32
  y : extent.y.toNat * groups.y.toNat < 2 ^ 32
  z : extent.z.toNat * groups.z.toNat < 2 ^ 32

/-- An id is `lane * groups + point` in numbers. -/
theorem threadId_toNat (hf : Fits extent groups) (hl : l.Below extent)
    (hp : p.Below groups) :
    (threadId groups l p).x.toNat = l.x.toNat * groups.x.toNat + p.x.toNat ∧
      (threadId groups l p).y.toNat = l.y.toNat * groups.y.toNat + p.y.toNat ∧
      (threadId groups l p).z.toNat = l.z.toNat * groups.z.toNat + p.z.toNat :=
  ⟨(coordinate?_eq_ok hl.1 hp.1 hf.x).2, (coordinate?_eq_ok hl.2.1 hp.2.1 hf.y).2,
    (coordinate?_eq_ok hl.2.2 hp.2.2 hf.z).2⟩

/-- The id of a visit is reckoned without a fault. -/
theorem id?_eq_ok (hf : Fits extent groups) (hl : l.Below extent) (hp : p.Below groups) :
    id? groups l p = .ok (threadId groups l p) := by
  rw [id?, (coordinate?_eq_ok hl.1 hp.1 hf.x).1, (coordinate?_eq_ok hl.2.1 hp.2.1 hf.y).1,
    (coordinate?_eq_ok hl.2.2 hp.2.2 hf.z).1]
  rfl

/-- Different visits have different ids. -/
theorem threadId_inj (hf : Fits extent groups) {l p m q : Uint3} (hl : l.Below extent)
    (hp : p.Below groups) (hm : m.Below extent) (hq : q.Below groups)
    (h : threadId groups l p = threadId groups m q) : l = m ∧ p = q := by
  obtain ⟨lx, ly, lz⟩ := threadId_toNat hf hl hp
  obtain ⟨mx, my, mz⟩ := threadId_toNat hf hm hq
  rw [h] at lx ly lz
  obtain ⟨hlx, hpx⟩ := digits_inj hp.1 hq.1 (lx.symm.trans mx)
  obtain ⟨hly, hpy⟩ := digits_inj hp.2.1 hq.2.1 (ly.symm.trans my)
  obtain ⟨hlz, hpz⟩ := digits_inj hp.2.2 hq.2.2 (lz.symm.trans mz)
  exact ⟨ext_toNat hlx hly hlz, ext_toNat hpx hpy hpz⟩

/-- A point of the grid. -/
def InGrid (extent groups id : Uint3) : Prop :=
  id.x.toNat < extent.x.toNat * groups.x.toNat ∧ id.y.toNat < extent.y.toNat * groups.y.toNat ∧
    id.z.toNat < extent.z.toNat * groups.z.toNat

/-- The id of a visit is a point of the grid. -/
theorem threadId_inGrid (hf : Fits extent groups) (hl : l.Below extent)
    (hp : p.Below groups) : InGrid extent groups (threadId groups l p) := by
  obtain ⟨ex, ey, ez⟩ := threadId_toNat hf hl hp
  exact ⟨ex ▸ digits_lt hl.1 hp.1, ey ▸ digits_lt hl.2.1 hp.2.1, ez ▸ digits_lt hl.2.2 hp.2.2⟩

/-- Every point of the grid is the id of a visit. -/
theorem exists_threadId (hf : Fits extent groups) {id : Uint3} (h : InGrid extent groups id) :
    ∃ l p, l.Below extent ∧ p.Below groups ∧ threadId groups l p = id := by
  obtain ⟨hlx, hpx, ex⟩ := exists_digits h.1
  obtain ⟨hly, hpy, ey⟩ := exists_digits h.2.1
  obtain ⟨hlz, hpz, ez⟩ := exists_digits h.2.2
  have hl : Below ⟨id.x / groups.x, id.y / groups.y, id.z / groups.z⟩ extent := ⟨hlx, hly, hlz⟩
  have hp : Below ⟨id.x % groups.x, id.y % groups.y, id.z % groups.z⟩ groups := ⟨hpx, hpy, hpz⟩
  obtain ⟨tx, ty, tz⟩ := threadId_toNat hf hl hp
  exact ⟨_, _, hl, hp, ext_toNat (tx.trans ex) (ty.trans ey) (tz.trans ez)⟩

/-- The ids of a dispatch, in the order of the visits. -/
def ids (extent groups : Uint3) : List Uint3 :=
  (visits extent groups).map fun v => threadId groups v.1 v.2

/-- The ids are the points of the grid. -/
theorem mem_ids (hv : extent.x.toNat * extent.y.toNat * extent.z.toNat < 2 ^ 64)
    (hf : Fits extent groups) {id : Uint3} : id ∈ ids extent groups ↔ InGrid extent groups id := by
  simp only [ids, mem_map, mem_visits hv]
  constructor
  · rintro ⟨v, ⟨hl, hp⟩, rfl⟩
    exact threadId_inGrid hf hl hp
  · intro h
    obtain ⟨l, p, hl, hp, rfl⟩ := exists_threadId hf h
    exact ⟨(l, p), ⟨hl, hp⟩, rfl⟩

/-- No id is repeated. -/
theorem nodup_ids (hv : extent.x.toNat * extent.y.toNat * extent.z.toNat < 2 ^ 64)
    (hf : Fits extent groups) : (ids extent groups).Nodup := by
  refine (nodup_visits hv).map_on fun v hm w hn heq => ?_
  obtain ⟨hl, hp⟩ := (mem_visits hv).1 hm
  obtain ⟨hm, hq⟩ := (mem_visits hv).1 hn
  obtain ⟨h1, h2⟩ := threadId_inj hf hl hp hm hq heq
  exact Prod.ext h1 h2

/-- The size of a grid that fits is found. -/
theorem grid?_eq_some (hf : Fits extent groups) :
    grid? extent groups
      = some ⟨extent.x * groups.x, extent.y * groups.y, extent.z * groups.z⟩ := by
  simp only [grid?, product?, (Word.product?_eq_ok hf.x).1, (Word.product?_eq_ok hf.y).1,
    (Word.product?_eq_ok hf.z).1]
  rfl

/-- Nothing is cut off on the way from the number of a lane to the id of a thread: the lanes fit in
64 bits, and the id at each point is found and is what unbounded arithmetic gives. -/
structure Exact (extent groups : Uint3) : Prop where
  laneCount : laneCount extent = extent.x.toNat * extent.y.toNat * extent.z.toNat
  plane : extent.x.toNat * extent.y.toNat < 2 ^ 64
  id : ∀ n < extent.x.toNat * extent.y.toNat * extent.z.toNat, ∀ p ∈ points groups,
    ∃ id, id? groups (lane extent n) p = .ok id ∧
      id.x.toNat = n % extent.x.toNat * groups.x.toNat + p.x.toNat ∧
      id.y.toNat = n / extent.x.toNat % extent.y.toNat * groups.y.toNat + p.y.toNat ∧
      id.z.toNat = n / (extent.x.toNat * extent.y.toNat) * groups.z.toNat + p.z.toNat

/-- Arithmetic is exact if lanes and grid fit. -/
theorem exact_of_fits (hv : extent.x.toNat * extent.y.toNat * extent.z.toNat < 2 ^ 64)
    (hf : Fits extent groups) : Exact extent groups := by
  have hplane : extent.x.toNat * extent.y.toNat < 2 ^ 32 * 2 ^ 32 :=
    Nat.mul_lt_mul'' extent.x.toNat_lt extent.y.toNat_lt
  refine ⟨laneCount_eq hv, hplane, fun n hn p hp => ?_⟩
  have hl : (lane extent n).Below extent := by
    refine (mem_lanes hv).1 (mem_map_of_mem (mem_range.2 ?_))
    rwa [laneCount_eq hv]
  have hp : p.Below groups := mem_points.1 hp
  obtain ⟨lx, ly, lz⟩ := lane_toNat hn
  obtain ⟨ex, ey, ez⟩ := threadId_toNat hf hl hp
  rw [lx] at ex
  rw [ly] at ey
  rw [lz] at ez
  exact ⟨_, id?_eq_ok hf hl hp, ex, ey, ez⟩

end Grid

/-! ## The run of the lanes -/

namespace Bench

variable {K : Type}

/-- The lanes run the body for the ids in turn. -/
theorem runLanes_eq_forEach (point : EntryPoint K) {groups : Uint3}
    (hv : point.extent.x.toNat * point.extent.y.toNat * point.extent.z.toNat < 2 ^ 64)
    (hf : Grid.Fits point.extent groups) :
    runLanes point groups = forEach (Grid.ids point.extent groups) point.body := by
  rw [Grid.ids, forEach_map]
  refine forEach_congr fun v hmem => ?_
  obtain ⟨hl, hp⟩ := (mem_visits hv).1 hmem
  obtain ⟨l, p⟩ := v
  simp only [id?_eq_ok hf hl hp]
  exact ofExcept_ok_bind _ _

/-- **A dispatch covers its grid.** When the lanes of an entry point fit in 64 bits and the
components of the grid in 32, the grid is accepted, and the lanes run the body for a list of ids
that has every point of the grid once and nothing else. No number is cut off on the way. -/
theorem runLanes_covers_grid (point : EntryPoint K) (groups : Uint3)
    (hv : point.extent.x.toNat * point.extent.y.toNat * point.extent.z.toNat < 2 ^ 64)
    (hf : Grid.Fits point.extent groups) :
    (Grid.grid? point.extent groups).isSome ∧ Exact point.extent groups ∧
      ∃ ids : List Uint3, runLanes point groups = forEach ids point.body ∧ ids.Nodup ∧
        ∀ id : Uint3, id ∈ ids ↔
          id.x.toNat < point.extent.x.toNat * groups.x.toNat ∧
          id.y.toNat < point.extent.y.toNat * groups.y.toNat ∧
          id.z.toNat < point.extent.z.toNat * groups.z.toNat :=
  ⟨by rw [grid?_eq_some hf]; rfl, exact_of_fits hv hf, Grid.ids point.extent groups,
    runLanes_eq_forEach point hv hf, nodup_ids hv hf, fun _ => mem_ids hv hf⟩

/-- An entry point without an effect, as wide as can be. -/
def widestPoint : EntryPoint Unit :=
  { name := "Widest", extent := ⟨65535, 2, 1⟩, body := fun _ => pure (), ordinal := 0 }

/-- As many groups as fit beside the extent of `widestPoint`. -/
def widestGroups : Uint3 := ⟨65537, 2147483647, 4294967295⟩

/-- The largest grid for this extent is covered up to its last point. -/
theorem runLanes_covers_widest_grid :
    Grid.Fits widestPoint.extent widestGroups ∧
      ∃ ids : List Uint3, runLanes widestPoint widestGroups = forEach ids widestPoint.body ∧
        ids.Nodup ∧ (⟨4294967294, 4294967293, 4294967294⟩ : Uint3) ∈ ids := by
  have hf : Grid.Fits widestPoint.extent widestGroups := ⟨by decide, by decide, by decide⟩
  obtain ⟨-, -, ids, hrun, hnodup, hmem⟩ :=
    runLanes_covers_grid widestPoint widestGroups (by decide) hf
  exact ⟨hf, ids, hrun, hnodup, (hmem _).2 (by decide)⟩

end Bench

end ComputeKernel
