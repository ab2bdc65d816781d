import Searchlight.Proofs.Client.Cache
import Searchlight.Proofs.Client.Opening

/-!
# How a remembered translation goes wrong

A field that is new to the registry raises its generation, and then nothing is remembered. So what
is remembered goes wrong only if the driver gets other fields while the generation stays. There are
two ways (`Slips`): a write is refused late, or a store that is open for reading picks up an index.
`proceeds_perform` tells that there are no others.
-/

namespace Searchlight.Client

open Searchlight.Action (Keeps)

variable {c c' c'' : Client} {h h' : Host} {e : Error} {fields : List (String × FieldConfig)}
  {P : Prop}

/-- What holds of a client as long as it is open: a store on disk is open in the way the client is,
and all fields of a client that may write are fields of its driver. Other stores have no more fields
than that. -/
structure Kept (c : Client) : Prop where
  fits : c.cache.Fits c.registry.generation
  readonly : c.closed = false → ∀ r, c.driver.diskReadonly? = some r → r = c.readonly
  schema : c.closed = false → c.readonly = false → c.registry.schema.Within c.driver.schema
  known : c.closed = false → c.driver.diskReadonly? = none → c.registry.schema = c.driver.schema

/-- A client goes on. While it is open, what is remembered is as right as before or nothing is
remembered any more, unless `P`. -/
structure Proceeds (P : Prop) (c c' : Client) : Prop where
  kept : c'.Kept
  wasOpen : c'.closed = false → c.closed = false
  disk : c'.closed = false → c'.driver.diskReadonly? = c.driver.diskReadonly?
  cache : c'.closed = false →
    c.registry.generation < c'.registry.generation ∧ c'.Fresh ∨
      c'.registry.generation = c.registry.generation ∧ ((c.Fresh → c'.Fresh) ∨ P)

theorem fresh_of_past (h : c.cache.generation < c.registry.generation) : c.Fresh :=
  fun _ _ hr => absurd hr.1 (Nat.ne_of_lt h)

namespace Proceeds

theorem refl (hc : c.Kept) : Proceeds P c c :=
  ⟨hc, id, fun _ => rfl, fun _ => .inr ⟨rfl, .inl id⟩⟩

theorem mono {Q : Prop} (h : Proceeds P c c') (hPQ : P → Q) : Proceeds Q c c' :=
  ⟨h.kept, h.wasOpen, h.disk, fun ho => (h.cache ho).imp id fun ⟨hg, h⟩ => ⟨hg, h.imp id hPQ⟩⟩

theorem closed (hc : c'.closed = true) (hfits : c'.cache.Fits c'.registry.generation) :
    Proceeds P c c' where
  kept := ⟨hfits, by simp [hc], by simp [hc], by simp [hc]⟩
  wasOpen := by simp [hc]
  disk := by simp [hc]
  cache := by simp [hc]

theorem trans (h : Proceeds P c c') (h' : Proceeds False c' c'') : Proceeds P c c'' where
  kept := h'.kept
  wasOpen ho := h.wasOpen (h'.wasOpen ho)
  disk ho := (h'.disk ho).trans (h.disk (h'.wasOpen ho))
  cache ho := by
    -- If either half raises the generation, what is remembered is right since then.
    rcases h'.cache ho with ⟨hgeneration', hfresh'⟩ | ⟨hgeneration', hfresh' | hslip⟩
    · rcases h.cache (h'.wasOpen ho) with ⟨hgeneration, -⟩ | ⟨hgeneration, -⟩
      · exact .inl ⟨Nat.lt_trans hgeneration hgeneration', hfresh'⟩
      · exact .inl ⟨hgeneration ▸ hgeneration', hfresh'⟩
    · rw [hgeneration']
      rcases h.cache (h'.wasOpen ho) with ⟨hgeneration, hfresh⟩ | ⟨hgeneration, hfresh | hslip⟩
      · exact .inl ⟨hgeneration, hfresh' hfresh⟩
      · exact .inr ⟨hgeneration, .inl (hfresh' ∘ hfresh)⟩
      · exact .inr ⟨hgeneration, .inr hslip⟩
    · exact hslip.elim

end Proceeds

/-! ## Questions -/

theorem Kept.not_picksUp (hc : c.Kept) (hopen : c.closed = false) (hwrite : c.readonly = false)
    {d : Driver} : ¬c.driver.PicksUp d := fun hpick => by
  have := hc.readonly hopen true hpick.diskReadonly?
  simp [hwrite] at this

theorem Used.proceeds (hu : Used c c') (hc : c.Kept) :
    Proceeds (c.driver.PicksUp c'.driver) c c' where
  kept := by
    have hdisk := hu.follows.diskReadonly?
    refine ⟨hu.fits hc.fits, fun hopen r hr => ?_, fun hopen hwrite => ?_, fun hopen hnone => ?_⟩
    · rw [hu.closed] at hopen
      rw [hu.readonly]
      exact hc.readonly hopen r (hdisk ▸ hr)
    · rw [hu.closed] at hopen
      rw [hu.readonly] at hwrite
      have hsame := hu.follows.resolve_right (hc.not_picksUp hopen hwrite)
      rw [hu.schema, hsame.schema]
      exact hc.schema hopen hwrite
    · rw [hu.closed] at hopen
      rw [hdisk] at hnone
      have hsame : c.driver.SameFields c'.driver :=
        hu.follows.resolve_right fun hpick => by simp [hpick.diskReadonly?] at hnone
      rw [hu.schema, hsame.schema]
      exact hc.known hopen hnone
  wasOpen hopen := hu.closed ▸ hopen
  disk _ := hu.follows.diskReadonly?
  cache _ := .inr ⟨hu.generation, hu.driver.imp (·.2) id⟩

/-- Nothing that a client for writing is used for makes wrong what is remembered. -/
theorem Used.proceeds_writing (hu : Used c c') (hc : c.Kept) (hopen : c.closed = false)
    (hwrite : c.readonly = false) : Proceeds P c c' :=
  (hu.proceeds hc).mono fun hpick => (hc.not_picksUp hopen hwrite hpick).elim

/-! ## Writes -/

/-- Fields that are taken are fields of the driver; if any is new, nothing is remembered. -/
theorem proceeds_registerNew (hc : c.Kept) (hopen : c.closed = false) (hwrite : c.readonly = false)
    (hrun : registerNew fields (c, h) = .ok () (c', h')) : Proceeds P c c' := by
  obtain ⟨d, r, rfl, hregister, hr⟩ := registerNew_eq_ok hrun
  obtain ⟨hschema, hknown, hdisk⟩ := Driver.registerFields_eq_ok hregister
  have hwithin := hc.schema hopen hwrite
  -- A batch without new fields changes nothing; any other raises the generation past the cache.
  obtain ⟨hr, ⟨hold, rfl⟩ | ⟨-, hgeneration⟩⟩ := Registry.registerAll_eq_ok hr
  · rw [hknown fun f hf => hwithin _ _ (hold f hf)]
    exact .refl hc
  · have hpast : c.cache.generation < r.generation := by
      have := hc.fits.past
      omega
    refine ⟨⟨⟨hc.fits.size, Nat.le_of_lt hpast⟩, fun _ r' hr' => ?_, fun _ _ => ?_,
      fun _ hnone => ?_⟩, fun _ => hopen, fun _ => hdisk,
      fun _ => .inl ⟨by simp [hgeneration], fresh_of_past hpast⟩⟩
    · exact hc.readonly hopen r' (hdisk ▸ hr')
    · change r.schema.Within d.schema
      rw [hr, hschema]
      exact hwithin.insertAll fields
    · change r.schema = d.schema
      rw [hr, hschema, hc.known hopen (hdisk ▸ hnone)]

theorem Used.freeze (ignored : Nat) :
    Used c { c with registry := c.registry.freeze, ignored } := by
  have hschema : c.registry.freeze.schema = c.registry.schema := by
    rw [Registry.freeze]
    split <;> rfl
  have hgeneration : c.registry.freeze.generation = c.registry.generation := by
    rw [Registry.freeze]
    split <;> rfl
  refine ⟨hschema, hgeneration, rfl, rfl, fun hc => ?_, .inl ⟨.refl _, fun hfresh q m hr => ?_⟩⟩
  · change c.cache.Fits c.registry.freeze.generation
    rwa [hgeneration]
  · exact hfresh q m ⟨hr.1.trans hgeneration, hr.2⟩

theorem Used.place (plan : DocumentPlan) (prepared : PreparedDocument) (id : Option String)
    (c : Client) (h : Host) : Used c ((Client.place plan prepared id).after (c, h)).1 := by
  have hkeeps : Keeps (fun y : Client × Host => Used c y.1) (Client.place plan prepared id)
      fun _ => True :=
    Keeps.seq (.of_after fun y hy => hy.trans (.drive (.index prepared id) y.1 y.2)) fun _ =>
      Keeps.seq (.modify fun _ hy => hy.trans (.freeze _)) fun _ => .pure trivial
  exact hkeeps.after (s := (c, h)) (.refl c)

/-- A late refusal leaves the fields that the registry knows. -/
theorem Leaves.proceeds {doc : Document} {d : Driver} (hd : c.Leaves doc e d) (hc : c.Kept) :
    Proceeds (c.LateRefusal doc e) c { c with driver := d } := by
  rcases hd with ⟨-, rfl⟩ | ⟨hlate, s, m, hs, -, rfl, -, hm⟩
  · exact .refl hc
  · have hdisk : (Driver.disk { s with fields := m }).diskReadonly? = c.driver.diskReadonly? := by
      rw [hs]
      rfl
    refine ⟨⟨hc.fits, fun hopen r hr => ?_, fun hopen hwrite name config hname => ?_,
      fun _ hnone => ?_⟩, id, fun _ => hdisk, fun _ => .inr ⟨rfl, .inr hlate⟩⟩
    · exact hc.readonly hopen r (hdisk ▸ hr)
    · have hknown := hc.schema hopen hwrite name config hname
      rw [hs] at hknown
      exact (hm name (by simp [show c.registry.schema.get? name = _ from hname])).trans hknown
    · cases hnone

/-! ## Requests -/

/-- The two ways in which a request gives the driver other fields in the same generation. -/
inductive Slips (c : Client) (h : Host) : Request → Prop where
  /-- A write is refused after the driver took fields of the document. -/
  | refused {target : WriteTarget} {doc : Document} {e : Error} {x : Client × Host}
    (hrun : prepareWrite target doc (c, h) = .error e x) (hlate : c.LateRefusal doc e) :
    Slips c h (.write target doc)
  /-- A store that is open for reading puts an index to use. -/
  | picksUp {q : Question} (hpick : c.driver.PicksUp (q.perform.after (c, h)).1.driver) :
    Slips c h (.question q)

theorem Slips.diskReadonly? {r : Request} (hs : c.Slips h r) : c.driver.diskReadonly? ≠ none := by
  cases hs with
  | refused _ hlate =>
    obtain ⟨_, -, s, _, _, _, _, hs, -⟩ := hlate
    simp [hs, Driver.diskReadonly?]
  | picksUp hpick => simp [hpick.diskReadonly?]

theorem proceeds_write (hc : c.Kept) (target : WriteTarget) (doc : Document) :
    Proceeds (c.Slips h (.write target doc)) c ((write target doc).after (c, h)).1 := by
  rw [Action.after, write, Action.bind_run]
  cases hrun : prepareWrite target doc (c, h) with
  | error e x =>
    obtain ⟨c', h'⟩ := x
    obtain ⟨d, ws, rfl, -, hd⟩ := prepareWrite_eq_error hrun
    exact (hd.proceeds hc).mono (.refused hrun)
  | ok planned x =>
    obtain ⟨plan, prepared⟩ := planned
    obtain ⟨c', h'⟩ := x
    obtain ⟨hopen, hwrite, -, -, ws, hnew⟩ := prepareWrite_eq_ok hrun
    have hproceeds : Proceeds (c.Slips h (.write target doc)) c c' :=
      proceeds_registerNew hc hopen hwrite hnew
    obtain ⟨d, r, rfl, -⟩ := registerNew_eq_ok hnew
    have hplace := Used.place plan prepared target.id? { c with driver := d, registry := r } h'
    rw [Action.after] at hplace
    exact hproceeds.trans (hplace.proceeds_writing hproceeds.kept hopen hwrite)

theorem proceeds_registerField (hc : c.Kept) (name : String) (config : FieldConfig) :
    Proceeds P c ((registerField name config).after (c, h)).1 := by
  rw [Action.after, registerField_eq, Action.bind_run]
  cases hwritable : ensureWritable "register_field" (c, h) with
  | error e x =>
    obtain ⟨rfl, -⟩ := ensureWritable_eq_error hwritable
    exact .refl hc
  | ok _ x =>
    obtain ⟨rfl, hopen, hwrite⟩ := ensureWritable_eq_ok hwritable
    dsimp only
    cases hrun : registerNew [(name, config)] (c, h) with
    | ok _ x =>
      obtain ⟨c', h'⟩ := x
      exact proceeds_registerNew hc hopen hwrite hrun
    | error e x =>
      obtain ⟨c', h'⟩ := x
      obtain ⟨d, rfl, -, ⟨-, rfl⟩ | ⟨⟨_, done, _, _, _, -, hfields, -, f, hf, -⟩, -⟩⟩ :=
        registerNew_eq_error (by simp) hrun
      · exact .refl hc
      -- A late refusal comes after a field that was taken, and a batch of one has no such field.
      · cases done with
        | nil => cases hf
        | cons g done => simp at hfields

theorem proceeds_close (hc : c.Kept) : Proceeds P c (close.after (c, h)).1 := by
  cases hclosed : c.closed with
  | true =>
    rw [Action.after, close_of_closed hclosed]
    exact .refl hc
  | false =>
    rw [Action.after, close_run hclosed]
    cases Driver.close (c.driver, h) <;> exact .closed rfl hc.fits

theorem proceeds_destroy (hc : c.Kept) : Proceeds P c (destroy.after (c, h)).1 := by
  cases hwritable : ensureWritable "destroy" (c, h) with
  | error e x =>
    obtain ⟨rfl, -⟩ := ensureWritable_eq_error hwritable
    rw [Action.after, destroy, Action.bind_run, hwritable]
    exact .refl hc
  | ok _ x =>
    obtain ⟨-, hopen, hwrite⟩ := ensureWritable_eq_ok hwritable
    rw [Action.after, destroy_run hopen hwrite]
    cases Driver.destroy (c.driver, h) <;> exact .closed rfl hc.fits

/-- **What a request leaves.** While the generation stays, only a slip makes wrong what is
remembered. -/
theorem proceeds_perform (hc : c.Kept) (r : Request) :
    Proceeds (c.Slips h r) c (r.perform.after (c, h)).1 := by
  cases r with
  | question q => exact ((Used.question q c h).proceeds hc).mono .picksUp
  | write target doc =>
    have := proceeds_write (h := h) hc target doc
    rwa [Request.perform, after_void]
  | registerField name config => exact proceeds_registerField hc name config
  | close => exact proceeds_close hc
  | destroy => exact proceeds_destroy hc

theorem proceeds_releaseLease (hc : c.Kept) : Proceeds P c (releaseLease.after (c, h)).1 := by
  rw [Action.after, releaseLease_eq]
  exact ⟨⟨hc.fits, hc.readonly, hc.schema, hc.known⟩, id, fun _ => rfl, fun _ => .inr ⟨rfl, .inl id⟩⟩

/-! ## Opening -/

/-- The schema that a driver tells is the one that it translates with. -/
theorem schemaSnapshot_eq_ok {d d' : Driver} {schema : Schema}
    (hrun : Driver.schemaSnapshot (d, h) = .ok schema (d', h')) :
    d'.schema = schema ∧ d'.diskReadonly? = d.diskReadonly? := by
  cases d with
  | memory s =>
    cases hrun
    exact ⟨rfl, rfl⟩
  | limited key s =>
    cases hrun
    exact ⟨rfl, rfl⟩
  | disk s =>
    cases hrun
    exact ⟨rfl, rfl⟩
  | sets s =>
    rw [Driver.schemaSnapshot, Driver.work_sets] at hrun
    cases hload : SetStore.Store.loadSchema (s, h.server) with
    | error e x =>
      rw [hload] at hrun
      cases hrun
    | ok schema' x =>
      rw [hload] at hrun
      cases hrun
      rw [SetStore.Store.loadSchema, Action.get_bind, Action.bind_eq_ok] at hload
      obtain ⟨entries, t, -, hload⟩ := hload
      obtain ⟨schema', t', -, hload⟩ := Action.bind_eq_ok.1 hload
      cases hload
      exact ⟨rfl, rfl⟩

theorem readonly_openWith (analyze : Disk.Analyzer) (o : BackendOptions) :
    Keeps (fun _ => True) (Disk.Store.openWith analyze o) fun s => s.readonly = o.readonly := by
  refine Keeps.seq .nothing fun _ => ?_
  split
  · exact .throw
  · exact .ite (fun _ => Keeps.seq .nothing fun _ => Keeps.seq .nothing fun _ => .pure rfl)
      fun _ => Keeps.seq .nothing fun _ => Keeps.seq .nothing fun _ =>
        Keeps.seq .nothing fun _ => .pure rfl

theorem readonly_openStore (catalog : Catalog) (backend : String) (o : BackendOptions) :
    Keeps (fun _ => True) (catalog.openStore backend o) fun d =>
      ∀ r, d.diskReadonly? = some r → r = o.readonly := by
  rw [Catalog.openStore]
  split
  · rename_i b _
    cases b with
    | memory =>
      refine Keeps.seq .nothing fun _ => .pure fun r hr => ?_
      cases hr
    | limited =>
      refine Keeps.seq .nothing fun _ => .pure fun r hr => ?_
      cases hr
    | sets =>
      refine Keeps.focus (Keeps.map .nothing fun s _ r hr => ?_) (fun _ h => h) fun _ _ h _ => h
      cases hr
    | disk =>
      refine Keeps.get.bind fun host _ => Keeps.focus
        ((readonly_openWith host.analyze o).map fun s hs r hr => ?_) (fun _ h => h) fun _ _ h _ => h
      exact (Option.some.inj hr).symm.trans hs
  · exact .throw

/-- **A client that was just opened** remembers nothing. -/
theorem connected (catalog : Catalog) (backend : String) (o : BackendOptions)
    (settings : ClientSettings) :
    Keeps (fun _ => True) (connect catalog backend o settings) fun c => c.Kept ∧ c.Fresh := by
  intro h _
  obtain ⟨e, h₁, -, hrun⟩ | ⟨d, h₁, hopen, ⟨key, -, -, hrun⟩ | ⟨-, ⟨e, d', h₂, -, hrun⟩ |
    ⟨schema, d', h₂, hread, hrun⟩⟩⟩ := connect_cases catalog backend o settings h <;> rw [hrun] <;>
    try trivial
  obtain ⟨hschema, hdisk⟩ := schemaSnapshot_eq_ok hread
  have hreadonly := ((readonly_openStore catalog backend o).of_ok trivial hopen).2
  subst hschema
  refine ⟨trivial, ⟨⟨Nat.zero_le _, Nat.zero_le _⟩, fun _ r hr => hreadonly r (hdisk ▸ hr),
    fun _ _ => fun _ _ h => h, fun _ _ => rfl⟩, fun q m hr => ?_⟩
  cases hr.2

end Searchlight.Client
