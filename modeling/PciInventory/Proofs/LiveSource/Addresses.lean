import PciInventory.LiveSource
import PciInventory.Proofs.Address.Grammar

/-!
# Addresses of a running system

Device addresses are read from directory names, and a number that does not fit
its field is no number there.  So every record of a running system has an address
that fits a snapshot.
-/

namespace PciInventory

namespace LiveSource

theorem mem_of_mapM_eq_ok {Item Result Fault : Type}
    {read : Item → Except Fault Result} {items : List Item}
    {results : List Result} (hread : items.mapM read = .ok results) :
    ∀ result ∈ results, ∃ item ∈ items, read item = .ok result := by
  induction items generalizing results with
  | nil =>
      cases hread
      simp
  | cons item rest ih =>
      rw [List.mapM_cons] at hread
      cases hitem : read item with
      | error fault =>
          rw [hitem] at hread
          contradiction
      | ok first =>
      cases hrest : rest.mapM read with
      | error fault =>
          rw [hitem, hrest] at hread
          contradiction
      | ok others =>
          rw [hitem, hrest] at hread
          cases hread
          intro result hresult
          rcases List.mem_cons.mp hresult with rfl | hresult
          · exact ⟨item, List.mem_cons_self, hitem⟩
          · obtain ⟨other, hother, hfound⟩ := ih hrest result hresult
            exact ⟨other, List.mem_cons_of_mem item hother, hfound⟩

theorem exists_of_map_eq_ok {Item Result Fault : Type}
    {change : Item → Result} {outcome : Except Fault Item} {result : Result}
    (hresult : outcome.map change = .ok result) :
    ∃ item, outcome = .ok item ∧ change item = result := by
  cases outcome with
  | error fault => contradiction
  | ok item => exact ⟨item, rfl, Except.ok.inj hresult⟩

theorem address_of_readDevice {tree : FileTree} {address : Address}
    {directory : Bytes} {record : DeviceRecord}
    (hread : readDevice tree address directory = .ok record) :
    record.address = address := by
  unfold readDevice at hread
  simp only at hread
  cases hconfig : readConfig tree (Path.join directory (Bytes.ofText "config"))
    with
  | error error =>
      rw [hconfig] at hread
      contradiction
  | ok config =>
  cases hresources :
      readResources tree (Path.join directory (Bytes.ofText "resource")) with
  | error error =>
      rw [hconfig, hresources] at hread
      contradiction
  | ok resources =>
      rw [hconfig, hresources] at hread
      cases hread
      rfl

theorem inRange_of_mem_devices {tree : FileTree} {root : Bytes}
    {records : List DeviceRecord} (hdevices : devices tree root = .ok records) :
    ∀ record ∈ records, record.address.InRange := by
  unfold devices at hdevices
  simp only at hdevices
  split at hdevices
  next => contradiction
  next names _ =>
  obtain ⟨read, hread, rfl⟩ := exists_of_map_eq_ok hdevices
  intro record hrecord
  obtain ⟨name, _, hname⟩ :=
    mem_of_mapM_eq_ok hread record
      ((List.mergeSort_perm read _).mem_iff.mp hrecord)
  cases haddress : Address.ofText (Utf8.display name) with
  | error error =>
      rw [haddress] at hname
      contradiction
  | ok address =>
      rw [haddress] at hname
      rw [address_of_readDevice hname]
      exact (Address.ofText_eq_ok_iff.mp haddress).inRange

end LiveSource

end PciInventory
