import PinnedManifest.ManifestTemplate

/-!
# ManifestTemplate/Shipped — the templates of the two shipped catalogs

Each has three lines at the top, the second and third fixed, and one block of eight lines for every
record under the catalog's context key.
-/

namespace PinnedManifest.ManifestTemplate

/-- The template for the signed blobs. -/
def blobsSource : String :=
  "# Generated by update-blobs at revision \x7b\x7blatest_sha\x7d\x7d. Do not edit.\n"
    ++ "name: nrfxlib\n"
    ++ "blobs:\n"
    ++ "\x7b\x7b#each blobs\x7d\x7d\n"
    ++ "  - path: \x7b\x7bthis.path\x7d\x7d\n"
    ++ "    sha256: \x7b\x7bthis.sha256\x7d\x7d\n"
    ++ "    type: img\n"
    ++ "    version: '\x7b\x7bthis.version\x7d\x7d'\n"
    ++ "    license-path: LICENSE\n"
    ++ "    url: \x7b\x7bthis.url\x7d\x7d\n"
    ++ "    description: \"\x7b\x7bthis.description\x7d\x7d\"\n"
    ++ "    doc-url: \x7b\x7bthis.doc_url\x7d\x7d\n"
    ++ "\x7b\x7b/each\x7d\x7d\n"

/-- The template for the Wi-Fi firmware. -/
def wifiFirmwareSource : String :=
  "# Generated by update-wifi-fw at revision \x7b\x7blatest_sha\x7d\x7d. Do not edit.\n"
    ++ "name: nrf_wifi\n"
    ++ "blobs:\n"
    ++ "\x7b\x7b#each firmwares\x7d\x7d\n"
    ++ "  - path: \x7b\x7bthis.path\x7d\x7d\n"
    ++ "    sha256: \x7b\x7bthis.sha256\x7d\x7d\n"
    ++ "    type: img\n"
    ++ "    version: '1.0.0'\n"
    ++ "    license-path: LICENSE\n"
    ++ "    url: \x7b\x7bthis.url\x7d\x7d\n"
    ++ "    description: \"nRF70 Wi-Fi firmware (\x7b\x7bthis.description\x7d\x7d)\"\n"
    ++ "    doc-url: https://docs.nordicsemi.com/bundle/ncs-latest/page/nrf/drivers/wifi/nrf70_native.html\n"
    ++ "\x7b\x7b/each\x7d\x7d\n"

end PinnedManifest.ManifestTemplate
