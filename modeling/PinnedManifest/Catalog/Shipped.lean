import PinnedManifest.Catalog

/-!
# Catalog/Shipped — the two catalogs that have a command of their own
-/

namespace PinnedManifest.Catalog

/-- Nordic signed blobs, whose remote paths are also their install paths. -/
def nordicBlobs : Catalog where
  name := "nordic-blobs"
  contextKey := "blobs"
  remoteDir := ""
  artifacts :=
    [{ name := "suit_manifest_starter"
       description := "nRF54H20 series SUIT manifest starter"
       remotePath := "suit/bin/suit_manifest_starter.hex"
       localPath := "suit/bin/suit_manifest_starter.hex"
       version := some "5.0.0"
       docPath := some "suit/doc" }]

/-- A firmware variant: one image of a fixed name in a directory of its own. -/
def firmwareVariant (variant : String) : Descriptor where
  name := variant
  description := variant
  remotePath := variant ++ "/nrf70.bin"
  localPath := "wifi_fw_bins/" ++ variant ++ "/nrf70.bin"

/-- The nRF70 Wi-Fi firmware variants. -/
def wifiFirmware : Catalog where
  name := "nrf70-wifi-firmware"
  contextKey := "firmwares"
  remoteDir := "nrf_wifi/fw_bins"
  artifacts := ["default", "scan_only", "radio_test", "system_with_raw"].map firmwareVariant

end PinnedManifest.Catalog
