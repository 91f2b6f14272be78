import ThreatTree.Proofs.Location.Selection
import ThreatTree.Proofs.Page.Json
import ThreatTree.Proofs.Page.Safety

/-!
# The table in the script

The script of the page has the table of offsets as a JSON text. An object without a name that stands
twice is a finite map; the objects for nodes and edges are the maps of the table
(`isTable_table`), since nothing is located twice under one name.

The main statement, `generate_script`, finds the text on the page and reads it.
-/

namespace ThreatTree

namespace Json

/-- The value is an object with one member for each entry, no two of them with one name, and the
script finds in it what the table has. -/
structure Tree.IsTable (t : Tree) (entries : List (String × Nat × Nat)) : Prop where
  exists_members : ∃ members, t = .object members ∧ (members.map (·.1)).Nodup
    ∧ members.Perm (entries.map fun e => (e.1.toList, .array [.number e.2.1, .number e.2.2]))
  range?_eq : ∀ name, (t.get? name).bind Tree.range? = entries.lookup name

variable {entries : List (String × Nat × Nat)} (h : (entries.map (·.1)).Nodup)
include h

theorem nodup_names :
    (((sortMembers entries).map fun e => (e.1.toList, Tree.pair e.2)).map (·.1)).Nodup := by
  have hsorted : ((sortMembers entries).map (·.1)).Nodup :=
    ((List.mergeSort_perm entries _).map _).nodup_iff.2 h
  have hnames := hsorted.map fun _ _ => String.toList_injective
  rw [List.map_map] at hnames ⊢
  exact hnames

theorem range?_table (name : String) :
    ((Tree.table entries).get? name).bind Tree.range? = entries.lookup name := by
  ext range
  have hmem : (name, range) ∈ entries ↔ entries.lookup name = some range :=
    (lookup_eq_some_iff_mem h).symm
  rw [Tree.table, Tree.get?, Option.bind_eq_some_iff, ← hmem]
  constructor
  · rintro ⟨t, ht, hrange⟩
    rw [lookup_eq_some_iff_mem (nodup_names h), List.mem_map] at ht
    obtain ⟨e, he, heq⟩ := ht
    obtain ⟨hname, rfl⟩ := Prod.mk.inj heq
    obtain rfl := String.toList_injective hname
    obtain rfl := Option.some.inj hrange
    exact List.mem_mergeSort.1 he
  · intro hentry
    refine ⟨.pair range, ?_, rfl⟩
    rw [lookup_eq_some_iff_mem (nodup_names h)]
    exact List.mem_map.2 ⟨(name, range), List.mem_mergeSort.2 hentry, rfl⟩

theorem isTable_table : (Tree.table entries).IsTable entries where
  exists_members :=
    ⟨_, rfl, nodup_names h, (List.mergeSort_perm entries _).map fun e =>
      (e.1.toList, Tree.pair e.2)⟩
  range?_eq := range?_table h

end Json

namespace Page

open Location (Index)

variable (text : List Char) (d : Document) (graph : Graph) (o : Options)

theorem exists_render_eq_script (c : Content) :
    ∃ front, c.render = front ++ (script.toList ++ (Json.offsets c.offsets ++ tail.toList)) := by
  obtain ⟨front, hpieces⟩ : ∃ front, c.pieces
      = front ++ [.fixed script, .script (Json.offsets c.offsets), .fixed tail] :=
    ⟨_, (List.append_assoc _ [Piece.fixed drawing, Piece.drawing c.svg] _).symm⟩
  refine ⟨front.flatMap Piece.render, ?_⟩
  rw [Content.render, hpieces, List.flatMap_append]
  simp only [List.flatMap_cons, List.flatMap_nil, List.append_nil, Piece.render]

/-- **The table in the script is read as the table of offsets.** The page of every text, graph and
index of the text exists, and so do the offsets in the text with its line ends normalised. Behind
`const locations = ` and up to the rest of the template, the page has a text of printable ASCII
characters without `<`, `>`, `&` and `'`. Read as JSON, it is an object with one object for the
edges and one for the nodes, and these have exactly the entries of the table. Titles are never
written alike if they differ. -/
theorem generate_script :
    ∃ page offsets front written edges nodes,
      (Index.build text d).offsets (Text.unixPairs text) = .ok offsets
      ∧ generate text graph (Index.build text d) o = .ok page
      ∧ page.toList = front ++ ("const locations = ".toList ++ (written ++ tail.toList))
      ∧ (∀ c ∈ written, (0x20 ≤ c.toNat ∧ c.toNat ≤ 0x7E) ∧ c ∉ ['<', '>', '&', '\''])
      ∧ Json.read? written = some (.object [("edges".toList, edges), ("nodes".toList, nodes)])
      ∧ edges.IsTable offsets.edges ∧ nodes.IsTable offsets.nodes
      ∧ ∀ title title', Json.string title = Json.string title' → title = title' := by
  obtain ⟨offsets, hoffsets, hgenerate⟩ := exists_generate_eq text d graph o
  obtain ⟨front, hrender⟩ := exists_render_eq_script (shown text graph offsets o)
  have hscript : "const locations = ".toList <:+ script.toList := by decide +kernel
  obtain ⟨before, hbefore⟩ := hscript
  have hedges : (offsets.edges.map (·.1)).Nodup := by
    rw [Index.map_fst_offsets hoffsets]
    exact nodup_distinct _
  have hnodes : (offsets.nodes.map (·.1)).Nodup := by
    rw [Index.map_fst_offsets_nodes hoffsets]
    exact Index.nodup_ids_build text d
  refine ⟨_, offsets, front ++ before, Json.offsets offsets, .table offsets.edges,
    .table offsets.nodes, hoffsets, hgenerate, ?_, Json.isScriptSafe_offsets offsets,
    (Json.isWritten_offsets offsets).read?_eq, Json.isTable_table hedges,
    Json.isTable_table hnodes, fun _ _ => Json.string_injective⟩
  rw [String.toList_ofList, hrender, ← hbefore]
  simp only [List.append_assoc]
  rfl

end Page

end ThreatTree
