import FtpsServer.ParallelUploads
import Mathlib.Data.List.Infix

/-!
# When uploads are atomic

`command_stor` is not one step, and the other threads run in between.  As long as uploads
to one file do not overlap nobody can tell: the tree is the one that the handlers make when
they run one after the other, in the order in which they opened their files.  What an
upload writes late is moved to where it opened its file, past the uploads behind it.
-/

namespace FtpsServer

open ByteString Cxx Posix FtpSession

/-! ## 1. Handlers one after the other -/

namespace Stor

theorem store_isSome (c : Stor) {t : FileTree} {l : Location} (bytes : Bytes)
    (h : (t.node l).isSome) : ((c.store t bytes).node l).isSome := by
  unfold store stored
  cases transferFile t c.filePath with
  | none => exact transferTree_isSome c.filePath h
  | some k =>
    dsimp only
    rw [FileTree.append_isSome]
    exact transferTree_isSome c.filePath h

/-- An append to another file comes before or after. -/
theorem store_append (c : Stor) {t : FileTree} {l : Location} (hl : (t.node l).isSome)
    (hne : transferFile t c.filePath ≠ some l) (bytes bytes' : Bytes) :
    c.store (t.append l bytes) bytes' = (c.store t bytes').append l bytes := by
  obtain ⟨htree, hfile⟩ := transfer_append hl bytes c.filePath
  unfold store
  rw [htree, hfile]
  cases hk : transferFile t c.filePath with
  | none => rfl
  | some k =>
    have hkl : k ≠ l := fun heq => hne (by rw [hk, heq])
    exact FileTree.append_comm hkl bytes bytes'

end Stor

namespace Uploads

variable {ι : Type}

/-- The uploads one after the other, each with what it has written so far. -/
def inTurn (stors : ι → Stor) (flushed : ι → Bytes) (t : FileTree) (order : List ι) : FileTree :=
  order.foldl (fun t i => (stors i).store t (flushed i)) t

section InTurn

variable {stors : ι → Stor} {flushed flushed' : ι → Bytes} {t : FileTree} {l : Location}

theorem inTurn_append (stors : ι → Stor) (flushed : ι → Bytes) (t : FileTree) (front back : List ι) :
    inTurn stors flushed t (front ++ back) =
      inTurn stors flushed (inTurn stors flushed t front) back := List.foldl_append

theorem inTurn_concat (stors : ι → Stor) (flushed : ι → Bytes) (t : FileTree) (order : List ι)
    (i : ι) : inTurn stors flushed t (order ++ [i]) =
      (stors i).store (inTurn stors flushed t order) (flushed i) := inTurn_append ..

theorem inTurn_congr {order : List ι} (h : ∀ i ∈ order, flushed i = flushed' i) :
    inTurn stors flushed t order = inTurn stors flushed' t order := by
  induction order generalizing t with
  | nil => rfl
  | cons i order ih =>
    change inTurn stors flushed ((stors i).store t (flushed i)) order =
      inTurn stors flushed' ((stors i).store t (flushed' i)) order
    rw [h i List.mem_cons_self, ih fun j hj => h j (List.mem_cons_of_mem _ hj)]

theorem inTurn_isSome (stors : ι → Stor) (flushed : ι → Bytes) (order : List ι)
    (h : (t.node l).isSome) : ((inTurn stors flushed t order).node l).isSome := by
  induction order generalizing t with
  | nil => exact h
  | cons i order ih => exact ih ((stors i).store_isSome _ h)

/-- An append comes before later uploads to other files. -/
theorem inTurn_push {back : List ι} (hl : (t.node l).isSome) (bytes : Bytes)
    (h : ∀ front j, front ++ [j] <+: back →
      transferFile (inTurn stors flushed t front) (stors j).filePath ≠ some l) :
    inTurn stors flushed (t.append l bytes) back = (inTurn stors flushed t back).append l bytes := by
  induction back using List.reverseRecOn with
  | nil => rfl
  | append_singleton back j ih =>
    have hback := ih fun front k hk => h front k (hk.trans (List.prefix_append back [j]))
    rw [inTurn_concat, inTurn_concat, hback]
    exact (stors j).store_append (inTurn_isSome stors flushed back hl) (h back j List.prefix_rfl) _ _

/-- The file of an upload is there from then on. -/
theorem inTurn_there {front : List ι} {i : ι}
    (hfile : transferFile (inTurn stors flushed t front) (stors i).filePath = some l)
    (back : List ι) : ((inTurn stors flushed t (front ++ i :: back)).node l).isSome := by
  rw [inTurn_append]
  apply inTurn_isSome stors flushed back
  change (((stors i).store (inTurn stors flushed t front) (flushed i)).node l).isSome
  rw [Stor.store, hfile]
  exact (FileTree.append_isSome _ l l _).trans (transferFile_isSome hfile)

end InTurn

/-- The handlers run one after the other. -/
theorem handlers_inTurn (stors : ι → Stor) (order : List ι) (p : Process) :
    ∃ p', order.foldlM (fun p i => (stors i).run p) p = .ok p' ∧
      p'.fileTree = inTurn stors (fun i => (stors i).bytes) p.fileTree order := by
  induction order generalizing p with
  | nil => exact ⟨p, rfl, rfl⟩
  | cons i order ih =>
    obtain ⟨p₁, h₁, htree₁⟩ := (stors i).run_ok p
    obtain ⟨p₂, h₂, htree₂⟩ := ih p₁
    refine ⟨p₂, ?_, ?_⟩
    · rw [List.foldlM_cons, h₁]
      exact h₂
    · rw [htree₂, htree₁]
      rfl

/-! ## 2. Uploads that do not meet in a file -/

/-- No two uploads are under way in one file. -/
def Apart (s : Uploads ι) : Prop :=
  ∀ i j l, (s.uploads i).underWay = true → (s.uploads j).underWay = true →
    (s.uploads i).file = some l → (s.uploads j).file = some l → i = j

/-- The state is what the uploads make one after the other, those under way with what they
    have written so far. -/
structure InTurn (t : FileTree) (stors : ι → Stor) (s : Uploads ι) (order : List ι)
    (flushed : ι → Bytes) : Prop extends InOrder stors s order where
  fileTree : s.fileTree = inTurn stors flushed t order
  file : ∀ front i, front ++ [i] <+: order →
    (s.uploads i).file = transferFile (inTurn stors flushed t front) (stors i).filePath
  bytes : ∀ i, (s.uploads i).file.isSome → flushed i ++ (s.uploads i).left = (stors i).bytes
  /-- What opened after an upload under way went to other files. -/
  behind : ∀ front i back l, order = front ++ i :: back → (s.uploads i).underWay = true →
    (s.uploads i).file = some l → ∀ j ∈ back, (s.uploads j).file ≠ some l

namespace InTurn

variable {t : FileTree} {stors : ι → Stor} {s : Uploads ι} {order : List ι} {flushed : ι → Bytes}

theorem start (t : FileTree) (stors : ι → Stor) :
    InTurn t stors (Uploads.start t stors) [] fun _ => [] where
  toInOrder := InOrder.start t stors
  fileTree := rfl
  file front i h := absurd (List.prefix_nil.mp h) (by simp)
  bytes i h := absurd h (by simp [Uploads.start, Stor.upload, Upload.file])
  behind front i back l h := absurd h.symm (by simp)

/-- Once no upload is under way, each has written all of its bytes. -/
theorem fileTree_of_quiet (h : InTurn t stors s order flushed)
    (hquiet : ∀ i, (s.uploads i).underWay = false) :
    s.fileTree = inTurn stors (fun i => (stors i).bytes) t order := by
  have hfronts : ∀ front, front <+: order → inTurn stors flushed t front =
      inTurn stors (fun i => (stors i).bytes) t front := by
    intro front hfront
    induction front using List.reverseRecOn with
    | nil => rfl
    | append_singleton front i ih =>
      have hi : i ∈ order := hfront.subset (List.mem_append_right _ (List.mem_singleton_self i))
      have hfile := h.file front i hfront
      rw [inTurn_concat, inTurn_concat, ← ih ((List.prefix_append front [i]).trans hfront), Stor.store,
        Stor.store, ← hfile]
      cases hsome : (s.uploads i).file with
      | none => rfl
      | some l =>
        have hbytes := h.bytes i (by rw [hsome]; rfl)
        rw [Upload.left_of_quiet ((h.opened i).mp hi) (hquiet i), List.append_nil] at hbytes
        rw [hbytes]
  rw [h.fileTree, hfronts order List.prefix_rfl]

end InTurn

variable [DecidableEq ι]

/-! ## 3. What a step keeps -/

namespace InTurn

variable {t : FileTree} {stors : ι → Stor} {s : Uploads ι} {order : List ι} {flushed : ι → Bytes}
  {i : ι} {u : Upload}

/-- An upload that only changes inside. -/
theorem within (h : InTurn t stors s order flushed)
    (hwaits : (s.uploads i).hasOpened = false → u = s.uploads i)
    (hopened : u.hasOpened = (s.uploads i).hasOpened) (hfile : u.file = (s.uploads i).file)
    (hway : u.underWay = true → (s.uploads i).underWay = true)
    (hleft : (s.uploads i).file.isSome → u.left = (s.uploads i).left) :
    InTurn t stors (s.set s.fileTree i u) order flushed := by
  have hfiles := set_file s.fileTree hfile
  refine ⟨h.toInOrder.set_same _ hwaits hopened, h.fileTree, ?_, ?_, ?_⟩
  · intro front j hfront
    rw [hfiles]
    exact h.file front j hfront
  · intro j hj
    rw [hfiles] at hj
    by_cases heq : j = i
    · subst heq
      rw [set_self, hleft hj]
      exact h.bytes j hj
    · rw [set_of_ne _ _ _ heq]
      exact h.bytes j hj
  · intro front j back l horder hj hl k hk
    rw [hfiles] at hl ⊢
    refine h.behind front j back l horder ?_ hl k hk
    by_cases heq : j = i
    · subst heq
      rw [set_self] at hj
      exact hway hj
    · rwa [set_of_ne _ _ _ heq] at hj

/-- An upload opens its file, as the last one. -/
theorem open' (h : InTurn t stors s order flushed)
    (hwaiting : (s.uploads i).hasOpened = false) (hopened : u.hasOpened = true)
    (hfile : u.file = transferFile s.fileTree (stors i).filePath) (hway : u.underWay = true)
    (hleft : u.left = (stors i).bytes)
    (hapart : Apart (s.set (transferTree s.fileTree (stors i).filePath) i u)) :
    InTurn t stors (s.set (transferTree s.fileTree (stors i).filePath) i u) (order ++ [i])
      (Function.update flushed i []) := by
  have hnew := h.not_mem hwaiting
  have hsame : ∀ front, (∀ j ∈ front, j ∈ order) →
      inTurn stors (Function.update flushed i []) t front = inTurn stors flushed t front := by
    intro front hfront
    apply inTurn_congr
    intro j hj
    exact Function.update_of_ne (fun heq => hnew (by rw [← heq]; exact hfront j hj)) ..
  have hold : ∀ j ∈ order, (s.set (transferTree s.fileTree (stors i).filePath) i u).uploads j =
      s.uploads j := fun j hj => set_of_ne _ _ _ (fun heq => hnew (by rwa [← heq]))
  refine ⟨h.toInOrder.set_opened _ hwaiting hopened, ?_, ?_, ?_, ?_⟩
  · rw [set_fileTree, inTurn_concat, hsame order fun j hj => hj, Function.update_self, Stor.store,
      stored_nil, ← h.fileTree]
  · intro front j hfront
    rcases List.prefix_concat_iff.mp hfront with heq | hfront
    · obtain ⟨rfl, hij⟩ := List.append_inj' heq rfl
      obtain rfl : j = i := by simpa using hij
      rw [set_self, hfile, hsame front fun k hk => hk, h.fileTree]
    · have hopened : ∀ k ∈ front, k ∈ order := fun k hk =>
        hfront.subset (List.mem_append_left _ hk)
      have hj : j ∈ order := hfront.subset (List.mem_append_right _ (List.mem_singleton_self j))
      rw [hold j hj, hsame front hopened]
      exact h.file front j hfront
  · intro j hj
    by_cases heq : j = i
    · subst heq
      rw [set_self, hleft, Function.update_self, List.nil_append]
    · rw [set_of_ne _ _ _ heq] at hj ⊢
      rw [Function.update_of_ne heq]
      exact h.bytes j hj
  · intro front k back l horder hk hl j hj hjl
    rcases List.eq_nil_or_concat back with rfl | ⟨back, last, rfl⟩
    · cases hj
    · rw [List.concat_eq_append] at horder hj
      have hsplit : order ++ [i] = (front ++ k :: back) ++ [last] := by
        rw [horder, List.append_assoc, List.cons_append]
      obtain ⟨rfl, hlast⟩ := List.append_inj' hsplit rfl
      obtain rfl : i = last := by simpa using hlast
      have hkorder : k ∈ front ++ k :: back := by simp
      rcases List.mem_append.mp hj with hj | hj
      · have hjorder : j ∈ front ++ k :: back := by simp [hj]
        rw [hold k hkorder] at hk hl
        rw [hold j hjorder] at hjl
        exact h.behind front k back l rfl hk hl j hj hjl
      · obtain rfl := List.mem_singleton.mp hj
        have heq := hapart k j l hk (by rw [set_self]; exact hway) hl hjl
        subst heq
        exact hnew hkorder

/-- Where an upload stands in the order, a block it writes goes to its file and to no tree
    before it. -/
theorem inTurn_update {front back : List ι} {l : Location} (hnodup : (front ++ i :: back).Nodup)
    (hfile : transferFile (inTurn stors flushed t front) (stors i).filePath = some l)
    (hback : ∀ mid j, mid ++ [j] <+: back →
      transferFile (inTurn stors flushed t (front ++ i :: mid)) (stors j).filePath ≠ some l)
    (bytes : Bytes) :
    inTurn stors (Function.update flushed i (flushed i ++ bytes)) t (front ++ i :: back) =
      (inTurn stors flushed t (front ++ i :: back)).append l bytes := by
  rw [List.nodup_append] at hnodup
  obtain ⟨-, hcons, hdisjoint⟩ := hnodup
  have hfront : inTurn stors (Function.update flushed i (flushed i ++ bytes)) t front =
      inTurn stors flushed t front := by
    apply inTurn_congr
    intro j hj
    exact Function.update_of_ne (hdisjoint j hj i List.mem_cons_self) ..
  have hrest : ∀ t', inTurn stors (Function.update flushed i (flushed i ++ bytes)) t' back =
      inTurn stors flushed t' back := by
    intro t'
    apply inTurn_congr
    intro j hj
    refine Function.update_of_ne ?_ ..
    rintro rfl
    exact (List.nodup_cons.mp hcons).1 hj
  have hsingle : ∀ mid, front ++ i :: mid = (front ++ [i]) ++ mid := by
    intro mid
    rw [List.append_assoc]
    rfl
  have hi : inTurn stors (Function.update flushed i (flushed i ++ bytes)) t (front ++ [i]) =
      (inTurn stors flushed t (front ++ [i])).append l bytes := by
    rw [inTurn_concat, inTurn_concat, hfront, Function.update_self, Stor.store, Stor.store, hfile]
    exact (FileTree.append_append _ l _ _).symm
  rw [hsingle, inTurn_append _ _ _ (front ++ [i]), inTurn_append _ _ _ (front ++ [i]), hi, hrest]
  apply inTurn_push (inTurn_there hfile [])
  intro mid j hmid
  rw [← inTurn_append, ← hsingle]
  exact hback mid j hmid

/-- An upload hands bytes of its buffer to its file. -/
theorem wrote (h : InTurn t stors s order flushed) {l : Location} {bytes : Bytes}
    (hbefore : (s.uploads i).underWay = true) (hopened : u.hasOpened = true)
    (hfile : (s.uploads i).file = some l) (hfile' : u.file = some l)
    (hleft : (s.uploads i).left = bytes ++ u.left) :
    InTurn t stors (s.set (s.fileTree.append l bytes) i u) order
      (Function.update flushed i (flushed i ++ bytes)) := by
  have hfiles := set_file (s.fileTree.append l bytes) (hfile'.trans hfile.symm)
  have hopened' := Upload.hasOpened_of_underWay hbefore
  have hwaits : (s.uploads i).hasOpened = false → u = s.uploads i := by
    intro hwaiting
    rw [hopened'] at hwaiting
    cases hwaiting
  have hway : ∀ j, ((s.set (s.fileTree.append l bytes) i u).uploads j).underWay = true →
      (s.uploads j).underWay = true := by
    intro j hj
    by_cases heq : j = i
    · rw [heq]
      exact hbefore
    · rwa [set_of_ne _ _ _ heq] at hj
  obtain ⟨front, back, horder⟩ := h.split_of_file hfile
  have hfront : front ++ [i] <+: order := ⟨back, by rw [horder, List.append_assoc]; rfl⟩
  have hi := (h.file front i hfront).symm.trans hfile
  have hnodup := h.nodup
  rw [horder] at hnodup
  have hback : ∀ mid j, mid ++ [j] <+: back →
      transferFile (inTurn stors flushed t (front ++ i :: mid)) (stors j).filePath ≠ some l := by
    intro mid j hmid
    have hlater : (front ++ i :: mid) ++ [j] <+: order := by
      rw [horder, List.append_assoc, List.cons_append]
      exact (List.prefix_append_right_inj front).mpr (List.cons_prefix_cons.mpr ⟨rfl, hmid⟩)
    rw [← h.file _ j hlater]
    exact h.behind front i back l horder hbefore hfile j
      (hmid.subset (List.mem_append_right _ (List.mem_singleton_self j)))
  refine ⟨h.toInOrder.set_same _ hwaits (hopened.trans hopened'.symm), ?_, ?_, ?_, ?_⟩
  · rw [set_fileTree, h.fileTree, horder]
    exact (inTurn_update hnodup hi hback bytes).symm
  · intro front' j hj
    rw [hfiles, h.file front' j hj]
    by_cases hmem : i ∈ front'
    · obtain ⟨front₁, mid, rfl⟩ := List.append_of_mem hmem
      obtain ⟨rest, hrest⟩ := hj
      have hsplit : front₁ ++ i :: (mid ++ [j] ++ rest) = front ++ i :: back := by
        rw [← horder, ← hrest]
        simp only [List.append_assoc, List.cons_append]
      rw [← hsplit] at hnodup
      have hfront : i ∉ front₁ := fun h =>
        (List.nodup_append.mp hnodup).2.2 i h i List.mem_cons_self rfl
      have hrest' : i ∉ mid ++ [j] ++ rest :=
        (List.nodup_cons.mp (List.nodup_append.mp hnodup).2.1).1
      obtain ⟨rfl, -, rfl⟩ := (List.append_cons_inj_of_notMem hfront hrest').mp hsplit
      have hmid : mid <+: mid ++ [j] ++ rest := by
        rw [List.append_assoc]
        exact List.prefix_append mid _
      have hnodup' : (front₁ ++ i :: mid).Nodup := by
        refine hnodup.sublist ((List.Sublist.refl front₁).append ?_)
        exact hmid.sublist.cons_cons i
      rw [inTurn_update hnodup' hi (fun m k hk => hback m k (hk.trans hmid)) bytes]
      exact (transfer_append (inTurn_there hi mid) bytes _).2.symm
    · have hsame : inTurn stors (Function.update flushed i (flushed i ++ bytes)) t front' =
          inTurn stors flushed t front' := by
        apply inTurn_congr
        intro k hk
        exact Function.update_of_ne (fun heq => hmem (by rwa [← heq])) ..
      rw [hsame]
  · intro j hj
    rw [hfiles] at hj
    by_cases heq : j = i
    · subst heq
      rw [set_self, Function.update_self, List.append_assoc, ← hleft]
      exact h.bytes j hj
    · rw [set_of_ne _ _ _ heq, Function.update_of_ne heq]
      exact h.bytes j hj
  · intro front' j back' k horder' hj hk m hm
    rw [hfiles] at hk ⊢
    exact h.behind front' j back' k horder' (hway j hj) hk m hm

/-- Every step of an upload keeps the turns, as long as no two meet in a file.  The order
    grows by the uploads that open their file. -/
theorem step (h : InTurn t stors s order flushed) (a : ι × UploadAction) (hapart : Apart (s.step a)) :
    ∃ flushed', InTurn t stors (s.step a)
      (if a.2 = .open' ∧ a.1 ∉ order then order ++ [a.1] else order) flushed' := by
  have hopens := Upload.act_hasOpened s.fileTree (s.uploads a.1) a.2
  obtain ⟨t', u, hacted, hu, hstep⟩ := s.step_acted a
  rw [hu] at hopens
  rw [hstep] at hapart ⊢
  -- no step but an `open'` that comes first adds to the order
  have hsame : u.hasOpened = (s.uploads a.1).hasOpened →
      (if a.2 = .open' ∧ a.1 ∉ order then order ++ [a.1] else order) = order := by
    intro heq
    refine if_neg ?_
    rintro ⟨hopen, hnot⟩
    rw [heq] at hopens
    exact hnot ((h.opened a.1).mpr (hopens.mpr (Or.inr hopen)))
  cases hacted with
  | within u hwaits hopened hfile hway hleft =>
    rw [hsame hopened]
    exact ⟨flushed, h.within hwaits hopened hfile hway.symm.trans fun _ => hleft⟩
  | opened filePath bufferFileSize room data u hu hopened hfile hway hleft =>
    have hwaiting : (s.uploads a.1).hasOpened = false := by
      rw [hu]
      rfl
    have hopen : a.2 = .open' := by
      rcases hopens.mp hopened with hbefore | hopen
      · rw [hwaiting] at hbefore
        cases hbefore
      · exact hopen
    have hstor := h.waiting a.1 hwaiting
    obtain rfl : filePath = (stors a.1).filePath := by
      rw [hu] at hstor
      exact (Upload.opening.inj hstor).1
    rw [hstor, Stor.upload_left] at hleft
    rw [if_pos ⟨hopen, h.not_mem hwaiting⟩]
    exact ⟨_, h.open' hwaiting hopened hfile hway hleft hapart⟩
  | wrote l bytes u hway hopened hfile hfile' hleft =>
    rw [hsame (hopened.trans (Upload.hasOpened_of_underWay hway).symm)]
    exact ⟨_, h.wrote hway hopened hfile hfile' hleft⟩
  | gaveUp u hbefore hopened hfile hfile' hway =>
    rw [hsame (hopened.trans hbefore.symm)]
    refine ⟨flushed, h.within ?_ (hopened.trans hbefore.symm) (hfile'.trans hfile.symm) ?_ ?_⟩
    · intro hwaiting
      rw [hbefore] at hwaiting
      cases hwaiting
    · intro hu
      rw [hway] at hu
      cases hu
    · intro hsome
      rw [hfile] at hsome
      cases hsome

end InTurn

/-! ## 4. Runs -/

/-- The uploads in the order in which the schedule has them open their files: each at its
    first `open'`. -/
def openings (as : List (ι × UploadAction)) : List ι :=
  as.foldl (fun order a => if a.2 = .open' ∧ a.1 ∉ order then order ++ [a.1] else order) []

theorem openings_concat (as : List (ι × UploadAction)) (a : ι × UploadAction) :
    openings (as ++ [a]) =
      if a.2 = .open' ∧ a.1 ∉ openings as then openings as ++ [a.1] else openings as := by
  rw [openings, List.foldl_append]
  rfl

/-- **Uploads are atomic unless they meet in a file**: when at no time two of them are under
    way in one file, then at every time when none is under way the tree is the one that the
    handlers make, run one after the other in the order in which the files were opened. -/
theorem run_atomic (t : FileTree) (stors : ι → Stor) (as : List (ι × UploadAction))
    (hapart : ∀ front, front <+: as → Apart ((start t stors).run front))
    (hquiet : ∀ i, (((start t stors).run as).uploads i).underWay = false)
    (p : Process) (hp : p.fileTree = t) :
    ∃ p', (openings as).foldlM (fun p i => (stors i).run p) p = .ok p' ∧
      p'.fileTree = ((start t stors).run as).fileTree := by
  have hinTurn : ∃ flushed, InTurn t stors ((start t stors).run as) (openings as) flushed := by
    clear hquiet
    induction as using List.reverseRecOn with
    | nil => exact ⟨_, InTurn.start t stors⟩
    | append_singleton as a ih =>
      obtain ⟨flushed, h⟩ :=
        ih fun front hfront => hapart front (hfront.trans (List.prefix_append as [a]))
      have hlast := hapart (as ++ [a]) List.prefix_rfl
      rw [run_concat] at hlast ⊢
      rw [openings_concat]
      exact h.step a hlast
  subst hp
  obtain ⟨flushed, h⟩ := hinTurn
  obtain ⟨p', hrun, htree⟩ := handlers_inTurn stors (openings as) p
  exact ⟨p', hrun, htree.trans (h.fileTree_of_quiet hquiet).symm⟩

/-- The upload of one byte to a name in the root folder, over a connection that a PORT made. -/
def storOne (name content : Bytes) (hcontent : content ≠ [] ∧ content.length ≤ BUFFER_SIZE) : Stor where
  session := { (first .bare ⟨0, 0, .clear⟩).session with
    folder := ascii "/"
    dataChannel := ⟨8, .null, false, ascii "127.0.0.1", 5001⟩ }
  env := { Environment.plain with data := [⟨content, hcontent.1, hcontent.2⟩] }
  input := ⟨.stor, [name]⟩
  fileName := name
  via := .plain 6
  dataVia := .plain 8
  argument := rfl
  control := rfl
  data := rfl

def twoStors (first : Bool) : Stor :=
  if first then storOne (ascii "x") (ascii "a") (by decide)
  else storOne (ascii "y") (ascii "b") (by decide)

/-- Two uploads, step by step in turn. -/
def twoUploads : List (Bool × UploadAction) :=
  [(true, .open'), (false, .open'), (false, .pull), (true, .pull), (true, .flush 1), (false, .pull),
    (true, .pull), (false, .close), (true, .close)]

theorem run_atomic_two :
    openings twoUploads = [true, false] ∧ ∃ p' : Process,
      [true, false].foldlM (fun p i => (twoStors i).run p) (Process.initial .bare) = .ok p' ∧
        p'.fileTree = ((start .bare twoStors).run twoUploads).fileTree ∧
          p'.fileTree.node [ascii "y"] = some (.regular FileTree.createMode (ascii "b")) := by
  have happart : ∀ front ∈ twoUploads.inits, ∀ i j : Bool,
      (((start .bare twoStors).run front).uploads i).underWay = true →
      (((start .bare twoStors).run front).uploads j).underWay = true →
      (((start .bare twoStors).run front).uploads i).file =
        (((start .bare twoStors).run front).uploads j).file → i = j := by decide +kernel
  obtain ⟨p', hp', htree⟩ := run_atomic .bare twoStors twoUploads
    (fun front hfront i j l hi hj hil hjl =>
      happart front ((List.mem_inits front twoUploads).mpr hfront) i j hi hj (hil.trans hjl.symm))
    (by decide +kernel) (Process.initial .bare) rfl
  exact ⟨rfl, p', hp', htree, by rw [htree]; decide +kernel⟩

end Uploads

end FtpsServer
