import MBootCore.Dsp.Builder

/-!
# Dsp — BuiltTree

What lies where in a package that was built.
-/

namespace MBootCore.DSPBuilder

open LexicalPath FileTree PathTree

variable {host : BuildHost} {config : BuildConfig} {source tree built : PackageTree}
  {name : String} {q : Place}

theorem bind_ok {x : Build} {f : PackageTree → Build} (h : (x >>= f) = .ok built) :
    ∃ middle, x = .ok middle ∧ f middle = .ok built := by
  cases x with
  | error e => cases h
  | ok middle => exact ⟨middle, rfl, h⟩

theorem lookup_writeFile {contents : ByteBuffer} (h : writeFile name contents tree = .ok built)
    (q : Place) :
    built.lookup q = if q = [name] then some (.file contents) else tree.lookup q := by
  rw [writeFile] at h
  split at h
  · cases h
  · rename_i hwrite
    cases h
    exact lookup_write hwrite q

theorem lookup_copyDirectory (h : copyDirectory source tree = .ok built) (q : Place) :
    built.lookup q = (source.lookup q).or (tree.lookup q) := by
  rw [copyDirectory] at h
  split at h
  · cases h
  · rename_i hcopy
    cases h
    exact lookup_copyEntries source.nodupKeys hcopy q

/-- The second copy of a directory finds everything in its place. -/
theorem lookup_copyAgain {dir : String} {p : (Sigma fun _ : Place => Node ByteBuffer) → Bool}
    (hthere : ∀ place node, source.lookup place = some node → p ⟨place, node⟩ = true →
      tree.lookup place = some node)
    (h : copyAgain dir (source.entries.filter p) source tree = .ok built) (q : Place) :
    built.lookup q = tree.lookup q := by
  rw [copyAgain] at h
  split at h
  · cases h
    rfl
  · cases h
  · split at h
    · cases h
    · rename_i hcopy
      cases h
      exact lookup_copyEntries_again hthere hcopy q

theorem lookup_doGenerateManifest
    (h : whenSet config.generateManifest (doGenerateManifest host config) tree = .ok built)
    (q : Place) :
    built.lookup q
      = if config.generateManifest ∧ q = ["manifest.json"] then
          some (.file (host.lib.dumpIndented (manifestJson host config)))
        else tree.lookup q := by
  rw [whenSet] at h
  split at h
  · rename_i hset
    rw [lookup_writeFile h]
    simp [hset]
  · rename_i hset
    cases h
    rw [if_neg fun hboth => hset hboth.1]

/-- What lies at a place before anything is derived. -/
def gatheredNode (host : BuildHost) (config : BuildConfig) (source tree : PackageTree)
    (q : Place) : Option (Node ByteBuffer) :=
  if q = ["vendor.json"] then some (.file (host.lib.dumpIndented (vendorJson config)))
  else if q = ["chipsets.json"] then some (.file (host.lib.dumpIndented chipsetsJson))
  else if config.generateManifest ∧ q = ["manifest.json"] then
    some (.file (host.lib.dumpIndented (manifestJson host config)))
  else (source.lookup q).or (tree.lookup q)

theorem lookup_gather (h : gather host config source tree = .ok built) (q : Place) :
    built.lookup q = gatheredNode host config source tree q := by
  obtain ⟨copied, hcopied, h⟩ := bind_ok h
  obtain ⟨described, hdescribed, h⟩ := bind_ok h
  obtain ⟨loaded, hloaded, h⟩ := bind_ok h
  obtain ⟨chipped, hchipped, h⟩ := bind_ok h
  obtain ⟨vended, hvended, h⟩ := bind_ok h
  obtain ⟨profiled, hprofiled, h⟩ := bind_ok h
  -- below a directory nothing was written but the copy
  have hdeep : ∀ dir name rest node, source.lookup (dir :: name :: rest) = some node →
      described.lookup (dir :: name :: rest) = some node := by
    intro dir name rest node hnode
    rw [lookup_doGenerateManifest hdescribed, if_neg (by simp), lookup_copyDirectory hcopied,
      hnode, Option.some_or]
  have hloaders : ∀ q, loaded.lookup q = described.lookup q := by
    refine lookup_copyAgain ?_ hloaded
    intro place node hnode hin
    split at hin
    · rename_i parent name contents heq
      cases heq
      exact hdeep _ _ _ _ hnode
    · cases hin
  have hvendor : ∀ q, vended.lookup q
      = if q = ["vendor.json"] then some (.file (host.lib.dumpIndented (vendorJson config)))
        else if q = ["chipsets.json"] then some (.file (host.lib.dumpIndented chipsetsJson))
        else described.lookup q := by
    intro q
    rw [lookup_writeFile hvended, lookup_writeFile hchipped, hloaders]
  have hbelow : ∀ (dir : String) (t : PackageTree), (∀ q, t.lookup q = vended.lookup q) →
      ∀ place node, source.lookup place = some node → decide (Below [dir] place) = true →
        t.lookup place = some node := by
    intro dir t ht place node hnode hin
    obtain ⟨⟨rest, rfl⟩, hne⟩ := of_decide_eq_true hin
    cases rest with
    | nil => exact absurd (List.append_nil _) hne
    | cons name rest =>
      rw [ht, hvendor, if_neg (by simp), if_neg (by simp)]
      exact hdeep _ _ _ _ hnode
  have hprofiles := lookup_copyAgain (hbelow "profiles" vended fun _ => rfl) hprofiled
  have hquirks := lookup_copyAgain (hbelow "quirks" profiled hprofiles) h
  rw [hquirks, hprofiles, hvendor, gatheredNode]
  split
  · rfl
  · split
    · rfl
    · rw [lookup_doGenerateManifest hdescribed, lookup_copyDirectory hcopied]

/-! ## Derived files -/

theorem lookup_compressLoader {data : ByteBuffer} (hq : q ≠ ["loaders", name ++ ".gz"]) :
    (compressLoader host tree name data).lookup q = tree.lookup q := by
  rw [compressLoader]
  split
  · rfl
  · split
    · rfl
    · split
      · rfl
      · rename_i compressed _
        cases hwrite : PathTree.write ["loaders", name ++ ".gz"] compressed tree with
        | none => rfl
        | some written => rw [Option.getD_some, lookup_write hwrite, if_neg hq]

theorem lookup_compressEach (hq : ∀ name, q ≠ ["loaders", name]) (entries : Entries ByteBuffer)
    (tree : PackageTree) : (compressEach host entries tree).lookup q = tree.lookup q := by
  fun_induction compressEach host entries tree with
  | case1 tree parent name data entries ih => rw [ih, lookup_compressLoader (hq _)]
  | case2 tree entry entries hentry ih => exact ih
  | case3 tree => rfl

/-- The files of the package that are not derived from others. -/
theorem lookup_derive (h : derive host config tree = .ok built)
    (hq : q ≠ ["checksum.sha256"] ∧ q ≠ ["signature.sig"] ∧ ∀ name, q ≠ ["loaders", name]) :
    built.lookup q = tree.lookup q := by
  obtain ⟨summed, hsummed, h⟩ := bind_ok h
  obtain ⟨compressed, hcompressed, h⟩ := bind_ok h
  have hsums : summed.lookup q = tree.lookup q := by
    rw [whenSet] at hsummed
    split at hsummed
    · rw [lookup_writeFile hsummed, if_neg hq.1]
    · cases hsummed
      rfl
  have hloaders : compressed.lookup q = summed.lookup q := by
    rw [whenSet] at hcompressed
    split at hcompressed
    · rw [doCompressLoaders] at hcompressed
      split at hcompressed
      · cases hcompressed
        rfl
      · cases hcompressed
      · cases hcompressed
        exact lookup_compressEach hq.2.2 _ _
    · cases hcompressed
      rfl
  rw [whenSet] at h
  split at h
  · rw [lookup_writeFile h, if_neg hq.2.1, hloaders, hsums]
  · cases h
    rw [hloaders, hsums]

theorem build_ok {source : Option PackageTree} (h : build host config source tree = .ok built) :
    ∃ directory gathered, source = some directory ∧
      gather host config directory tree = .ok gathered ∧
        derive host config gathered = .ok built := by
  cases source with
  | none => cases h
  | some directory =>
    obtain ⟨gathered, hgather, hderive⟩ := bind_ok h
    exact ⟨directory, gathered, rfl, hgather, hderive⟩

end MBootCore.DSPBuilder
