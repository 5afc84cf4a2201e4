/-!
# Names of capabilities

The two kinds of capability number their ids separately.
-/

namespace PciInventory

inductive CapabilityKind where
  | compatible
  | extended
deriving DecidableEq

namespace CapabilityKind

def compatibleName? : (id : Nat) → Option String
  | 0x01 => some "Power Management"
  | 0x02 => some "AGP"
  | 0x03 => some "Vital Product Data"
  | 0x04 => some "Slot Identification"
  | 0x05 => some "MSI"
  | 0x06 => some "CompactPCI Hot Swap"
  | 0x07 => some "PCI-X"
  | 0x08 => some "HyperTransport"
  | 0x09 => some "Vendor Specific"
  | 0x0a => some "Debug Port"
  | 0x0b => some "CompactPCI Central Resource Control"
  | 0x0c => some "PCI Hot-Plug"
  | 0x0d => some "Subsystem Vendor ID"
  | 0x0e => some "AGP 8x"
  | 0x0f => some "Secure Device"
  | 0x10 => some "PCI Express"
  | 0x11 => some "MSI-X"
  | 0x12 => some "SATA Data/Index Configuration"
  | 0x13 => some "Advanced Features"
  | 0x14 => some "Enhanced Allocation"
  | 0x15 => some "Flattening Portal Bridge"
  | _ => none

def extendedName? : (id : Nat) → Option String
  | 0x01 => some "Advanced Error Reporting"
  | 0x02 => some "Virtual Channel"
  | 0x03 => some "Device Serial Number"
  | 0x04 => some "Power Budgeting"
  | 0x05 => some "Root Complex Link Declaration"
  | 0x06 => some "Root Complex Internal Link Control"
  | 0x07 => some "Root Complex Event Collector Endpoint Association"
  | 0x08 => some "Multi-Function Virtual Channel"
  | 0x09 => some "Virtual Channel (MFVC present)"
  | 0x0a => some "Root Complex Register Block"
  | 0x0b => some "Vendor Specific Extended"
  | 0x0c => some "Configuration Access Correlation"
  | 0x0d => some "Access Control Services"
  | 0x0e => some "Alternative Routing-ID Interpretation"
  | 0x0f => some "Address Translation Services"
  | 0x10 => some "Single Root I/O Virtualization"
  | 0x11 => some "Multi-Root I/O Virtualization"
  | 0x12 => some "Multicast"
  | 0x13 => some "Page Request Interface"
  | 0x15 => some "Resizable BAR"
  | 0x16 => some "Dynamic Power Allocation"
  | 0x17 => some "TPH Requester"
  | 0x18 => some "Latency Tolerance Reporting"
  | 0x19 => some "Secondary PCI Express"
  | 0x1a => some "Protocol Multiplexing"
  | 0x1b => some "Process Address Space ID"
  | 0x1c => some "LN Requester"
  | 0x1d => some "Downstream Port Containment"
  | 0x1e => some "L1 PM Substates"
  | 0x1f => some "Precision Time Measurement"
  | 0x20 => some "PCI Express over M-PHY"
  | 0x21 => some "FRS Queueing"
  | 0x22 => some "Readiness Time Reporting"
  | 0x23 => some "Designated Vendor-Specific"
  | 0x24 => some "VF Resizable BAR"
  | 0x25 => some "Data Link Feature"
  | 0x26 => some "Physical Layer 16.0 GT/s"
  | 0x27 => some "Lane Margining at the Receiver"
  | 0x28 => some "Hierarchy ID"
  | 0x29 => some "Native PCIe Enclosure Management"
  | 0x2a => some "Physical Layer 32.0 GT/s"
  | 0x2b => some "Alternate Protocol"
  | 0x2c => some "System Firmware Intermediary"
  | _ => none

def name? : CapabilityKind → (id : Nat) → Option String
  | .compatible => compatibleName?
  | .extended => extendedName?

end CapabilityKind

end PciInventory
